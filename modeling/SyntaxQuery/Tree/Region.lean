import SyntaxQuery.Tree.Ancestors
import SyntaxQuery.Tree.Descent

/-!
# The region of a selection

The region of two positions is found at the lowest common ancestor of their nodes. When the
ancestor is a container, the region is the run of its items from the one above the first node to
the one above the second, whichever comes first; otherwise it is the ancestor itself.
-/

namespace SyntaxQuery

/-- What a selection covers. -/
inductive Region (ν : Type) where
  | node (n : ν)
  | siblings (run : List ν)
deriving DecidableEq, Repr

namespace Region

/-- The covered nodes in the order of the source. -/
def nodes {ν : Type} : Region ν → List ν
  | node n => [n]
  | siblings run => run

end Region

namespace Tree

variable {ν : Type} [DecidableEq ν]

/-- Where two walks down from the root part: the last node they share, `above` if they share none,
and the two nodes after it. `none` when the shorter walk is the beginning of the longer. -/
def fork (above : ν) : List ν → List ν → ν × Option (ν × ν)
  | a :: as, b :: bs => if a = b then fork a as bs else (above, some (a, b))
  | _, _ => (above, none)

/-- The run of the items of `container` between the places of `a` and `b`. -/
def narrow (t : Tree ν) (container a b : ν) : Except (Malformed ν) (Region ν) :=
  match t.items container, t.indexOf container a, t.indexOf container b with
  | some items, some i, some j =>
    let low := min i j
    let high := max i j
    if high < items.length then .ok (.siblings ((items.take (high + 1)).drop low))
    else .error (.indexOutside (t.tag container) high items.length)
  | _, _, _ => .ok (.node container)

/-- The region that covers `start` and `stop`. -/
def regionAt (t : Tree ν) (start stop : Position) : Except (Malformed ν) (Region ν) := do
  let a ← t.nodeAt start
  let b ← t.nodeAt stop
  if a = b then return .node a
  let above ← t.ancestors a
  let below ← t.ancestors b
  match fork t.root above.reverse below.reverse with
  | (shared, none) => return .node shared
  | (shared, some (a, b)) => t.narrow shared a b

end Tree

end SyntaxQuery
