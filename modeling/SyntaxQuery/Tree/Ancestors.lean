import SyntaxQuery.Tree.Basic

/-!
# From a node up to the root

`ancestors` lists a node and all nodes above it, the root last. A walk that takes more steps than
the tree has nodes runs in a circle.
-/

namespace SyntaxQuery.Tree

variable {ν : Type} [DecidableEq ν]

/-- The nodes from `current` up to the root, in at most `steps` steps; `anchor` is where the walk
began. -/
def climb (t : Tree ν) (anchor : ν) (steps : Nat) (current : ν) :
    Except (Malformed ν) (List ν) :=
  if current = t.root then .ok [current]
  else
    match steps with
    | 0 => .error (.parentCycle anchor)
    | steps + 1 =>
      match t.parent current with
      | none => .error (.orphan current)
      | some p => (climb t anchor steps p).map (current :: ·)

/-- `node` and all nodes above it, the root last. -/
def ancestors (t : Tree ν) (node : ν) : Except (Malformed ν) (List ν) :=
  t.climb node t.nodeCount node

end SyntaxQuery.Tree
