import SyntaxQuery.Error

/-!
# Shapes of a source

A shape says which kinds of nodes a source may have at its top level, and whether it must have
exactly one.
-/

namespace SyntaxQuery

/-- What a source must look like at its top level. -/
structure Shape where
  kinds : List String
  single : Bool
deriving DecidableEq, Repr

/-- Why a source does not have a shape. -/
inductive ShapeError where
  | unexpected (expected : List String) (found : String) (place : Position)
  | notSingle (expected : List String) (count : Nat)
deriving DecidableEq, Repr

namespace ShapeError

def reason : ShapeError → String
  | unexpected expected found place =>
    "expected " ++ " or ".intercalate expected ++ ", found `" ++ found ++ "` at " ++ place.toText
  | notSingle expected count =>
    "expected a single " ++ " or ".intercalate expected ++ ", found " ++ toString count ++ " nodes"

def toError (e : ShapeError) : Error := .validation e.reason

end ShapeError

namespace Shape

/-- A single function definition. -/
def function : Shape := ⟨["function_definition"], true⟩

/-- The top-level nodes of a source that has the shape. -/
def check (shape : Shape) (s : Snapshot) : Except ShapeError (List Nat) :=
  match s.topLevel.find? fun n => !shape.kinds.contains (s.get n).kind with
  | some n => .error (.unexpected shape.kinds (s.get n).kind (s.get n).span.topLeft)
  | none =>
    if shape.single ∧ s.topLevel.length ≠ 1 then
      .error (.notSingle shape.kinds s.topLevel.length)
    else .ok s.topLevel

end Shape

end SyntaxQuery
