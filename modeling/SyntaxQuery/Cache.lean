import SyntaxQuery.Engine
import SyntaxQuery.Error

/-!
# The snapshot cache

The cache remembers the snapshots that were asked for last, by a digest of the language, the extra
container kinds and the source. Digests may collide, so a remembered snapshot is given out only
after its language and source have been compared. A call looks its key up (`lookup`), and when that
fails it parses and stores the snapshot (`insert`); both steps make the key the most recent one, and
storing pushes out the least recent key of a full cache.

Snapshots are told apart by the number of the call that made them.
-/

namespace SyntaxQuery

/-- A snapshot and the number of the call that made it. -/
structure Stored where
  madeBy : Nat
  snapshot : Snapshot
deriving DecidableEq, Repr

/-- The most recently used snapshots, the latest first, and the number of calls so far. -/
structure Cache (κ : Type) where
  capacity : Nat
  calls : Nat
  entries : List (κ × Stored)

namespace Cache

variable {κ : Type} [DecidableEq κ]

def empty (capacity : Nat) : Cache κ := ⟨capacity, 0, []⟩

/-- The octets that are digested: the language, the extra kinds and the source, with a zero after
all but the last. -/
def keyOctets (language : String) (extra : List String) (source : String) : List UInt8 :=
  language.toUTF8.toList ++ 0 :: (extra.flatMap fun k => k.toUTF8.toList ++ [0]) ++
    source.toUTF8.toList

/-- Whether a snapshot is one of this source in this language. -/
def confirms (language source : String) (s : Snapshot) : Bool :=
  s.source = source && s.language = language

/-- The stored snapshot under `key`. -/
def find? (c : Cache κ) (key : κ) : Option Stored :=
  (c.entries.find? fun e => e.1 = key).map (·.2)

/-- Make `key` the most recent one if it is held. -/
def promote (c : Cache κ) (key : κ) : Cache κ :=
  match c.find? key with
  | none => c
  | some s => { c with entries := (key, s) :: c.entries.filter (·.1 ≠ key) }

/-- Look `key` up for a source in a language. -/
def lookup (c : Cache κ) (key : κ) (language source : String) : Option Stored × Cache κ :=
  ((c.find? key).filter fun s => confirms language source s.snapshot, c.promote key)

/-- Store a snapshot under `key`. -/
def insert (c : Cache κ) (key : κ) (s : Stored) : Cache κ :=
  { c with entries := ((key, s) :: c.entries.filter (·.1 ≠ key)).take c.capacity }

/-- What the call with number `call` makes without looking into the cache. -/
def fresh (engine : Engine κ) (call : Nat) (grammar : Grammar) (options : ParseOptions)
    (source : String) : Except ParseError Stored :=
  (Snapshot.parse engine.parser grammar options source).map fun s => ⟨call, s⟩

/-- Parse through the cache. A cache without capacity remembers nothing. -/
def parse (engine : Engine κ) (c : Cache κ) (grammar : Grammar) (options : ParseOptions)
    (source : String) : Except ParseError Stored × Cache κ :=
  let call := c.calls
  let c := { c with calls := call + 1 }
  if c.capacity = 0 then (fresh engine call grammar options source, c)
  else
    let key := engine.digest (keyOctets grammar.name options.extra source)
    match c.lookup key grammar.name source with
    | (some s, c) => (.ok s, c)
    | (none, c) =>
      match fresh engine call grammar options source with
      | .ok s => (.ok s, c.insert key s)
      | .error e => (.error e, c)

end Cache

end SyntaxQuery
