import SyntaxQuery.Text.Numeral

/-!
# Faults of JSON texts

A fault is a message with the place where reading stopped. Lines count from one, so line zero says
that the place is not known, and then none is written. A fault that has become text is found again
by `ofText`, which takes the place off its end.
-/

namespace SyntaxQuery.Json

/-- What is wrong with a JSON text, and where. -/
structure Fault where
  message : String
  line : Nat
  column : Nat
deriving DecidableEq, Repr

namespace Fault

/-- A fault whose place is not known. -/
def unplaced (message : String) : Fault := ⟨message, 0, 0⟩

def toText (f : Fault) : String :=
  if f.line = 0 then f.message
  else f.message ++ " at line " ++ toString f.line ++ " column " ++ toString f.column

@[simp] theorem toText_unplaced (message : String) : (unplaced message).toText = message := rfl

/-- What stands before `word` at the end of a text; the text is given and returned backwards. -/
def before? (word : String) (backwards : List Char) : Option (List Char) :=
  let w := word.toList.reverse
  if w.isPrefixOf backwards then some (backwards.drop w.length) else none

/-- What stands before the digits at the end of a text, and their value, which is a word of 64
bits; the text is given and returned backwards. -/
def beforeNumeral? (backwards : List Char) : Option (List Char × Nat) :=
  let (digits, rest) := backwards.span fun c => (Text.Numeral.digit? c).isSome
  match Text.Numeral.read Text.maxWord64 digits.reverse with
  | .ok n => some (rest, n)
  | .error _ => none

/-- The place at the end of a text, behind its message. -/
def placed? (text : String) : Option Fault := do
  let (rest, column) ← beforeNumeral? text.toList.reverse
  let rest ← before? " column " rest
  let (rest, line) ← beforeNumeral? rest
  let rest ← before? " at line " rest
  return ⟨String.ofList rest.reverse, line, column⟩

/-- The fault that `text` tells of. -/
def ofText (text : String) : Fault :=
  (placed? text).getD (unplaced text)

end Fault

end SyntaxQuery.Json
