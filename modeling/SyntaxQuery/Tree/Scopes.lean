import SyntaxQuery.Tree.Ancestors

/-!
# Enclosing scopes

The scopes of a node are the nodes from it up to, but without, the root. Of neighbours with one
span only the outermost is a scope, so each scope has a span of its own.
-/

namespace SyntaxQuery

/-- A node that encloses another, by what it is and where. -/
structure Scope where
  tag : String
  span : Span
deriving DecidableEq, Repr

namespace Tree

variable {ν : Type} [DecidableEq ν]

/-- Put `scope` around `inner`, scopes listed outermost first: it takes the place of the outermost
of them when both have one span. -/
def enclose (scope : Scope) : List Scope → List Scope
  | [] => [scope]
  | outer :: rest => if outer.span = scope.span then scope :: rest else scope :: outer :: rest

/-- Walk up from `current` in at most `steps` steps and put each node but the root around `inner`,
scopes listed outermost first. -/
def scopesFrom (t : Tree ν) (anchor : ν) (steps : Nat) (current : ν) (inner : List Scope) :
    Except (Malformed ν) (List Scope) :=
  if current = t.root then .ok inner
  else
    match steps with
    | 0 => .error (.parentCycle anchor)
    | steps + 1 =>
      match t.parent current with
      | none => .error (.cutOff current)
      | some p => t.scopesFrom anchor steps p (enclose ⟨t.tag current, t.span current⟩ inner)

/-- The scopes around `anchor`, innermost first. -/
def scopes (t : Tree ν) (anchor : ν) : Except (Malformed ν) (List Scope) :=
  (t.scopesFrom anchor t.nodeCount anchor []).map List.reverse

end Tree

end SyntaxQuery
