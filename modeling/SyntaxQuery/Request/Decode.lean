import SyntaxQuery.Json.Basic
import SyntaxQuery.Position
import SyntaxQuery.Text.Quoted

/-!
# Decoding requests

Records are decoded from objects, whose members may come in any order and of which only the known
ones matter. Of several faults, the first member with a bad value is reported, in the order of the
members' names, and a missing member only when all that are there are good. Most records can also be
written as arrays of their fields in the order of the fields' names.
-/

namespace SyntaxQuery

/-- Why a value does not decode. -/
inductive DecodeError where
  | wrongType (found : Json) (expected : String)
  | wrongValue (found : Int) (expected : String)
  | missingField (name : String)
  | duplicateField (name : String)
  | tooShort (index : Nat) (record : String) (arity : Nat)
  | tooLong (length : Nat)
  | trailing
deriving Repr

namespace Json

/-- What kind of value a value is. -/
def describe : Json → String
  | .null => "null"
  | .bool b => "boolean `" ++ (if b then "true" else "false") ++ "`"
  | .number (.integer n) => "integer `" ++ toString n ++ "`"
  | .number (.real x) => "floating point `" ++ Number.realText x ++ "`"
  | .text s => "string " ++ Text.quoted s
  | .array _ => "sequence"
  | .object _ => "map"

end Json

namespace DecodeError

def reason : DecodeError → String
  | wrongType found expected => "invalid type: " ++ found.describe ++ ", expected " ++ expected
  | wrongValue found expected =>
    "invalid value: integer `" ++ toString found ++ "`, expected " ++ expected
  | missingField name => "missing field `" ++ name ++ "`"
  | duplicateField name => "duplicate field `" ++ name ++ "`"
  | tooShort index record arity =>
    "invalid length " ++ toString index ++ ", expected struct " ++ record ++ " with " ++
      toString arity ++ (if arity = 1 then " element" else " elements")
  | tooLong length =>
    "invalid length " ++ toString length ++ ", expected fewer elements in array"
  | trailing => "trailing characters"

end DecodeError

namespace Decode

/-- A decoder of one value. -/
abbrev Decoder (α : Type) := Json → Except DecodeError α

def text : Decoder String
  | .text s => .ok s
  | v => .error (.wrongType v "a string")

/-- Any value. -/
def any : Decoder Json := .ok

/-- A value that may be null. -/
def nullable {α : Type} (d : Decoder α) : Decoder (Option α)
  | .null => .ok none
  | v => (d v).map some

/-- A natural number of at most `limit`, called `expected`. -/
def natural (limit : Nat) (expected : String) : Decoder Nat
  | .number (.integer n) =>
    if 0 ≤ n ∧ n ≤ limit then .ok n.toNat else .error (.wrongValue n expected)
  | v => .error (.wrongType v expected)

def word32 : Decoder UInt32 := fun v =>
  (natural Text.maxWord32 "u32" v).map UInt32.ofNat

def word64 : Decoder Nat := natural Text.maxWord64 "usize"

/-- The member `name`, decoded if it is there. -/
def member? {α : Type} (members : List (String × Json)) (name : String) (d : Decoder α) :
    Except DecodeError (Option α) :=
  match Json.member? members name with
  | none => .ok none
  | some v => (d v).map some

/-- Insist that the member `name` was there. -/
def required {α : Type} (name : String) : Option α → Except DecodeError α
  | none => .error (.missingField name)
  | some a => .ok a

/-- The item at `index`, decoded if it is there. -/
def item? {α : Type} (items : List Json) (index : Nat) (d : Decoder α) :
    Except DecodeError (Option α) :=
  match items[index]? with
  | none => .ok none
  | some v => (d v).map some

/-- The item at `index` of an array that stands for a record. -/
def item {α : Type} (record : String) (arity : Nat) (items : List Json) (index : Nat)
    (d : Decoder α) : Except DecodeError α := do
  match ← item? items index d with
  | none => .error (.tooShort index record arity)
  | some a => .ok a

/-- Insist that an array holds no more than `arity` items. -/
def noMore (arity : Nat) (items : List Json) : Except DecodeError Unit :=
  if arity < items.length then .error (.tooLong items.length) else .ok ()

/-- A record that is an object. -/
def record {α : Type} (name : String)
    (ofMembers : List (String × Json) → Except DecodeError α) : Decoder α
  | .object members => ofMembers members
  | v => .error (.wrongType v ("struct " ++ name))

/-- A record that is an object or an array of its fields. -/
def recordOrArray {α : Type} (name : String)
    (ofMembers : List (String × Json) → Except DecodeError α)
    (ofItems : List Json → Except DecodeError α) : Decoder α
  | .object members => ofMembers members
  | .array items => ofItems items
  | v => .error (.wrongType v ("struct " ++ name))

/-- Params that are null count as an object without members. -/
def params {α : Type} (d : Decoder α) : Decoder α
  | .null => d (.object [])
  | v => d v

/-- A record with one field. -/
def single {α : Type} (name field : String) (d : Decoder α) : Decoder α :=
  recordOrArray name
    (fun members => do required field (← member? members field d))
    (fun items => do
      let a ← item name 1 items 0 d
      noMore 1 items
      return a)

/-- A position, as an object or as its column and row. -/
def position : Decoder Position :=
  recordOrArray "Position"
    (fun members => do
      let column ← member? members "column" word32
      let row ← member? members "row" word32
      let column ← required "column" column
      let row ← required "row" row
      return ⟨row, column⟩)
    (fun items => do
      let column ← item "Position" 2 items 0 word32
      let row ← item "Position" 2 items 1 word32
      noMore 2 items
      return ⟨row, column⟩)

end Decode

end SyntaxQuery
