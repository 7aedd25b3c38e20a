import SyntaxQuery.Json.Number

/-!
# The lexemes of a JSON text

A JSON text is read octet by octet, each octet taken as the character of the same number. One pass
(`Lexeme.scan`) cuts it into brackets, words, numerals and quoted texts. A quoted text whose
characters cannot be decoded, or a numeral past the largest real, is still a lexeme: what it stands
for is `none`.
-/

namespace SyntaxQuery.Json

/-- A lexeme of a JSON text. -/
inductive Lexeme where
  | openArray
  | closeArray
  | openObject
  | closeObject
  | comma
  | colon
  | null
  | bool (b : Bool)
  | number (value : Option Number)
  | text (value : Option String)
deriving DecidableEq, Repr

/-- A part of a quoted text: an octet, or a code unit written by its number. -/
inductive TextUnit where
  | octet (c : Char)
  | code (n : Nat)
deriving DecidableEq, Repr

namespace TextUnit

def hexDigit? (c : Char) : Option Nat :=
  if '0' ≤ c ∧ c ≤ '9' then some (c.toNat - '0'.toNat)
  else if 'a' ≤ c ∧ c ≤ 'f' then some (c.toNat - 'a'.toNat + 10)
  else if 'A' ≤ c ∧ c ≤ 'F' then some (c.toNat - 'A'.toNat + 10)
  else none

/-- The character that a backslash and `c` stand for. -/
def escaped? (c : Char) : Option Char :=
  match c with
  | '"' => some '"'
  | '\\' => some '\\'
  | '/' => some '/'
  | 'b' => some '\x08'
  | 'f' => some '\x0c'
  | 'n' => some '\n'
  | 'r' => some '\r'
  | 't' => some '\t'
  | _ => none

/-- The parts of the octets between two quotes; `none` when a control stands among them or a
backslash stands before something it cannot escape. -/
def split? : List Char → Option (List TextUnit)
  | [] => some []
  | '\\' :: 'u' :: a :: b :: c :: d :: rest => do
    let a ← hexDigit? a
    let b ← hexDigit? b
    let c ← hexDigit? c
    let d ← hexDigit? d
    let units ← split? rest
    return .code (((a * 16 + b) * 16 + c) * 16 + d) :: units
  | '\\' :: c :: rest => do
    let c ← escaped? c
    let units ← split? rest
    return .octet c :: units
  | c :: rest =>
    if c = '\\' ∨ c.toNat < 0x20 then none
    else do
      let units ← split? rest
      return .octet c :: units

def isLeading (n : Nat) : Bool := 0xd800 ≤ n && n < 0xdc00

def isTrailing (n : Nat) : Bool := 0xdc00 ≤ n && n < 0xe000

/-- The octets of the UTF-8 form of the character `n`. -/
def encode (n : Nat) : List UInt8 :=
  String.utf8EncodeChar (Char.ofNat n)

/-- The octets that the parts stand for; `none` when half of a surrogate pair stands alone. -/
def octets? : List TextUnit → Option (List UInt8)
  | [] => some []
  | .octet c :: rest => (octets? rest).map (c.toNat.toUInt8 :: ·)
  | .code high :: .code low :: rest =>
    if isLeading high then
      if isTrailing low then
        (octets? rest).map (encode (0x10000 + (high - 0xd800) * 0x400 + (low - 0xdc00)) ++ ·)
      else none
    else if isTrailing high then none
    else (octets? (.code low :: rest)).map (encode high ++ ·)
  | .code n :: rest =>
    if isLeading n || isTrailing n then none
    else (octets? rest).map (encode n ++ ·)

/-- The text that the parts stand for, if they are well-formed UTF-8. -/
def decode? (units : List TextUnit) : Option String := do
  let octets ← octets? units
  String.fromUTF8? ⟨octets.toArray⟩

end TextUnit

namespace Lexeme

/-- What has been read of the lexeme that is not finished yet, latest octet first. -/
inductive Mode where
  | between
  | word (read : List Char)
  | numeral (read : List Char)
  | quoted (read : List Char)
  | backslash (read : List Char)
deriving DecidableEq, Repr

/-- Whether `c` may occur in a numeral. -/
def isNumeric (c : Char) : Bool :=
  c.isDigit || c = '-' || c = '+' || c = '.' || c = 'e' || c = 'E'

/-- What may stand between lexemes. -/
def isSpace (c : Char) : Bool :=
  c = ' ' || c = '\t' || c = '\n' || c = '\r'

def word? (cs : List Char) : Option Lexeme :=
  if cs = "null".toList then some null
  else if cs = "true".toList then some (bool true)
  else if cs = "false".toList then some (bool false)
  else none

def numeral? (cs : List Char) : Option Lexeme :=
  (Numeral.read? cs).map fun n => number n.value?

def quoted? (cs : List Char) : Option Lexeme :=
  (TextUnit.split? cs).map fun units => text (TextUnit.decode? units)

/-- Begin with `c` between two lexemes. -/
def begin? (c : Char) : Option (Mode × List Lexeme) :=
  match c with
  | '[' => some (.between, [openArray])
  | ']' => some (.between, [closeArray])
  | '\x7b' => some (.between, [openObject])
  | '\x7d' => some (.between, [closeObject])
  | ',' => some (.between, [comma])
  | ':' => some (.between, [colon])
  | '"' => some (.quoted [], [])
  | c =>
    if isSpace c then some (.between, [])
    else if c.isDigit || c = '-' then some (.numeral [c], [])
    else if c.isLower then some (.word [c], [])
    else none

/-- Read one more octet: the new mode, and the lexemes that are finished by it. -/
def step? (mode : Mode) (c : Char) : Option (Mode × List Lexeme) :=
  match mode with
  | .between => begin? c
  | .word read =>
    if c.isLower then some (.word (c :: read), [])
    else do
      let l ← word? read.reverse
      let (mode, ls) ← begin? c
      return (mode, l :: ls)
  | .numeral read =>
    if isNumeric c then some (.numeral (c :: read), [])
    else do
      let l ← numeral? read.reverse
      let (mode, ls) ← begin? c
      return (mode, l :: ls)
  | .quoted read =>
    if c = '"' then (quoted? read.reverse).map fun l => (.between, [l])
    else if c = '\\' then some (.backslash (c :: read), [])
    else some (.quoted (c :: read), [])
  | .backslash read => some (.quoted (c :: read), [])

/-- The lexeme that the end of the text finishes. -/
def finish? : Mode → Option (List Lexeme)
  | .between => some []
  | .word read => (word? read.reverse).map ([·])
  | .numeral read => (numeral? read.reverse).map ([·])
  | .quoted _ => none
  | .backslash _ => none

/-- The lexemes of the octets `cs`, read from `mode` on. -/
def scan? : Mode → List Char → Option (List Lexeme)
  | mode, [] => finish? mode
  | mode, c :: cs => do
    let (mode, ls) ← step? mode c
    let rest ← scan? mode cs
    return ls ++ rest

end Lexeme

end SyntaxQuery.Json
