import SyntaxQuery.Source.Snapshot

/-!
# Arguments of a function definition
-/

namespace SyntaxQuery

/-- A parameter: its name as written and its default value. -/
structure Argument where
  name : String
  default : Option String
deriving DecidableEq, Repr

namespace Snapshot

/-- The argument that an entry of a parameter list declares. The separators between positional,
ordinary and keyword parameters declare none. -/
def argument? (s : Snapshot) (n : Nat) : Option Argument :=
  let kind := (s.get n).kind
  if kind = "keyword_separator" ∨ kind = "positional_separator" then none
  else if kind = "default_parameter" ∨ kind = "typed_default_parameter" then
    some
      { name := ((s.childByField n "name").map s.text).getD ""
        default := (s.childByField n "value").map s.text }
  else if kind = "typed_parameter" then
    some { name := ((s.get n).children.head?.map s.text).getD "", default := none }
  else some { name := s.text n, default := none }

/-- The arguments of the function at `n`, in order. -/
def arguments (s : Snapshot) (n : Nat) : List Argument :=
  match s.childByField n "parameters" with
  | none => []
  | some p => (s.get p).children.filterMap s.argument?

end Snapshot

end SyntaxQuery
