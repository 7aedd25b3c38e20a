import SyntaxQuery.Position

/-!
# Trees as they present themselves

A `Tree` answers the questions that resolution asks about nodes, and nothing ties one answer to
another: parents and children may disagree, links may run in circles and the number of nodes may be
wrong. Whatever is computed from a tree ends all the same, and reports a `Malformed` tree where the
answers lead nowhere.
-/

namespace SyntaxQuery

/-- A tree seen through its answers about nodes. -/
structure Tree (ν : Type) where
  root : ν
  parent : ν → Option ν
  /-- All children in the order of the source. -/
  children : ν → List ν
  /-- The items of a container, which can be cut out as runs; `none` for other nodes. -/
  items : ν → Option (List ν)
  /-- The place of a node among the items of a container. -/
  indexOf : ν → ν → Option Nat
  nodeCount : Nat
  span : ν → Span
  tag : ν → String

/-- What is wrong with a tree. -/
inductive Malformed (ν : Type) where
  | parentCycle (anchor : ν)
  | orphan (node : ν)
  | cutOff (node : ν)
  | endlessDescent (target : Position)
  | indexOutside (tag : String) (index count : Nat)
deriving DecidableEq, Repr

namespace Malformed

def message {ν : Type} [ToString ν] : Malformed ν → String
  | parentCycle anchor => "parent cycle above " ++ toString anchor
  | orphan node => toString node ++ " has no parent but is not the root"
  | cutOff node => toString node ++ " cannot reach the root"
  | endlessDescent target => "descent toward " ++ target.toText ++ " did not terminate"
  | indexOutside tag index count =>
    tag ++ " reports index " ++ toString index ++ " but holds " ++ toString count ++ " items"

end Malformed

namespace Tree

/-- The place of the first item equal to `child`. -/
def firstIndex {ν : Type} [DecidableEq ν] (items : ν → Option (List ν)) (container child : ν) :
    Option Nat :=
  (items container).bind fun is => is.findIdx? (· = child)

end Tree

end SyntaxQuery
