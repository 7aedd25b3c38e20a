import SyntaxQuery.Json.Basic
import SyntaxQuery.Json.Lexeme

/-!
# Reading JSON

Reading has two stages. The lexemes of a text are first put together into a draft, which follows
the grammar alone: it keeps every member of an object in the order of the text, and its numbers and
texts may stand for nothing. `Draft.value?` then gives the value of a draft whose numbers and texts
all stand for something and which nests at most as deep as it may.
-/

namespace SyntaxQuery.Json

/-- A JSON text by its grammar alone. -/
inductive Draft where
  | null
  | bool (b : Bool)
  | number (value : Option Number)
  | text (value : Option String)
  | array (items : List Draft)
  | object (members : List (Option String × Draft))
deriving Repr, Inhabited

namespace Draft

/-- An array or object that is still open, what it holds so far latest first. An object is open
either inside a member, whose name is known, or between members. -/
inductive Frame where
  | array (items : List Draft)
  | object (members : List (Option String × Draft)) (name : Option String)

/-- What the grammar allows next. -/
inductive Expect where
  | value
  | valueOrClose
  | name (members : List (Option String × Draft))
  | nameOrClose
  | colon (members : List (Option String × Draft)) (name : Option String)
  | separator (done : Draft)

/-- The open arrays and objects, innermost first, and what may come next. -/
structure State where
  stack : List Frame
  expect : Expect

def start : State := ⟨[], .value⟩

/-- A lexeme that is a whole value. -/
def scalar? : Lexeme → Option Draft
  | .null => some .null
  | .bool b => some (.bool b)
  | .number n => some (.number n)
  | .text s => some (.text s)
  | _ => none

/-- Read a lexeme where a value may begin. -/
def beginValue? (stack : List Frame) : Lexeme → Option State
  | .openArray => some ⟨.array [] :: stack, .valueOrClose⟩
  | .openObject => some ⟨stack, .nameOrClose⟩
  | l => (scalar? l).map fun d => ⟨stack, .separator d⟩

/-- Read a lexeme after the value `done`. -/
def endValue? (stack : List Frame) (done : Draft) (l : Lexeme) : Option State :=
  match stack, l with
  | .array items :: stack, .comma => some ⟨.array (done :: items) :: stack, .value⟩
  | .array items :: stack, .closeArray =>
    some ⟨stack, .separator (.array (done :: items).reverse)⟩
  | .object members name :: stack, .comma => some ⟨stack, .name ((name, done) :: members)⟩
  | .object members name :: stack, .closeObject =>
    some ⟨stack, .separator (.object ((name, done) :: members).reverse)⟩
  | _, _ => none

/-- Read one more lexeme. -/
def step? (s : State) (l : Lexeme) : Option State :=
  match s.expect with
  | .value => beginValue? s.stack l
  | .valueOrClose =>
    match s.stack, l with
    | .array [] :: stack, .closeArray => some ⟨stack, .separator (.array [])⟩
    | stack, l => beginValue? stack l
  | .nameOrClose =>
    match l with
    | .closeObject => some ⟨s.stack, .separator (.object [])⟩
    | .text name => some ⟨s.stack, .colon [] name⟩
    | _ => none
  | .name members =>
    match l with
    | .text name => some ⟨s.stack, .colon members name⟩
    | _ => none
  | .colon members name =>
    match l with
    | .colon => some ⟨.object members name :: s.stack, .value⟩
    | _ => none
  | .separator done => endValue? s.stack done l

/-- The draft that the lexemes `ls` complete, read from `s` on. -/
def build? (s : State) : List Lexeme → Option Draft
  | [] =>
    match s with
    | ⟨[], .separator d⟩ => some d
    | _ => none
  | l :: ls => do
    let s ← step? s l
    build? s ls

/-- Octets as the characters of the same numbers. -/
def octets (bytes : List UInt8) : List Char :=
  bytes.map fun b => Char.ofNat b.toNat

/-- The draft of a JSON text. -/
def read? (bytes : List UInt8) : Option Draft := do
  let ls ← Lexeme.scan? .between (octets bytes)
  build? start ls

mutual

/-- The value of a draft that nests at most `depth` levels. -/
def value? (depth : Nat) : Draft → Option Json
  | .null => some .null
  | .bool b => some (.bool b)
  | .number n => n.map .number
  | .text s => s.map .text
  | .array items =>
    match depth with
    | 0 => none
    | depth + 1 => (values? depth items).map .array
  | .object members =>
    match depth with
    | 0 => none
    | depth + 1 => (members? depth members).map ofMembers

/-- The values of the items of an array. -/
def values? (depth : Nat) : List Draft → Option (List Json)
  | [] => some []
  | d :: ds => do
    let v ← value? depth d
    let vs ← values? depth ds
    return v :: vs

/-- The values of the members of an object. -/
def members? (depth : Nat) : List (Option String × Draft) → Option (List (String × Json))
  | [] => some []
  | (name, d) :: ds => do
    let name ← name
    let v ← value? depth d
    let vs ← members? depth ds
    return (name, v) :: vs

end

end Draft

/-- How deep arrays and objects may nest. -/
def maxDepth : Nat := 127

/-- The value of a JSON text. -/
def read? (bytes : List UInt8) : Option Json := do
  let d ← Draft.read? bytes
  d.value? maxDepth

end SyntaxQuery.Json
