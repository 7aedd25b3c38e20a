import SyntaxQuery.Tree.Basic

/-!
# From the root down to a position

`nodeAt` steps from the root to the first child that holds the position, again and again, and ends
at a node none of whose children does.
-/

namespace SyntaxQuery.Tree

variable {ν : Type}

/-- The child of `node` to descend to. -/
def childAt (t : Tree ν) (pos : Position) (node : ν) : Option ν :=
  (t.children node).find? fun c => decide (pos ∈ t.span c)

/-- The end of the descent from `current`, which may look at `looks` nodes. -/
def descend (t : Tree ν) (pos : Position) : Nat → ν → Except (Malformed ν) ν
  | 0, _ => .error (.endlessDescent pos)
  | looks + 1, current =>
    match t.childAt pos current with
    | none => .ok current
    | some c => t.descend pos looks c

/-- The innermost node at `pos`; the root for a position outside all other nodes. -/
def nodeAt (t : Tree ν) (pos : Position) : Except (Malformed ν) ν :=
  t.descend pos t.nodeCount t.root

end SyntaxQuery.Tree
