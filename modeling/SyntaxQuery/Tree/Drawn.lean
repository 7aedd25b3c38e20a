import SyntaxQuery.Tree.Basic

/-!
# Trees drawn by hand

A drawn tree grows node by node and can then be spoiled on purpose: parent links can be turned or
cut, items hidden, and wrong places reported. `Listed` trees are given whole, each node with all of
its links. Both number their nodes from zero.
-/

namespace SyntaxQuery

/-- A node of a drawn tree. -/
structure DrawnNode where
  tag : String
  span : Span
  parent : Option Nat
  children : List Nat
  items : List Nat
  /-- The place it claims among the items of any container. -/
  claimed : Option Nat
deriving DecidableEq, Repr, Inhabited

/-- A tree drawn node by node; the root is node 0. -/
structure Drawn where
  nodes : Array DrawnNode

namespace Drawn

/-- The tree of the root alone. -/
def start : Drawn :=
  ⟨#[{ tag := "root", span := ⟨⟨1, 1⟩, ⟨100, 1⟩⟩, parent := none, children := [], items := [],
       claimed := none }]⟩

def get (t : Drawn) (n : Nat) : DrawnNode := t.nodes.getD n default

def modify (t : Drawn) (n : Nat) (f : DrawnNode → DrawnNode) : Drawn :=
  ⟨t.nodes.modify n f⟩

/-- Add a last child of `parent`; its number is the old number of nodes. -/
def push (t : Drawn) (tag : String) (parent : Nat) (span : Span) : Drawn :=
  let id := t.nodes.size
  let grown : Drawn :=
    ⟨t.nodes.push
      { tag := tag, span := span, parent := some parent, children := [], items := [],
        claimed := none }⟩
  grown.modify parent fun p => { p with children := p.children ++ [id], items := p.items ++ [id] }

/-- Turn the parent link of `node` to `parent`; the lists of children stay. -/
def setParent (t : Drawn) (node parent : Nat) : Drawn :=
  t.modify node fun n => { n with parent := some parent }

/-- Cut the parent link of `node`. -/
def detach (t : Drawn) (node : Nat) : Drawn :=
  t.modify node fun n => { n with parent := none }

/-- Take `node` out of the items of its parent. -/
def hide (t : Drawn) (node : Nat) : Drawn :=
  match (t.get node).parent with
  | none => t
  | some p => t.modify p fun n => { n with items := n.items.filter (· ≠ node) }

/-- Let `node` claim the place `index`. -/
def claim (t : Drawn) (node index : Nat) : Drawn :=
  t.modify node fun n => { n with claimed := some index }

/-- The drawn tree; every node is a container. -/
def tree (t : Drawn) : Tree Nat where
  root := 0
  parent n := (t.get n).parent
  children n := (t.get n).children
  items n := some (t.get n).items
  indexOf container child :=
    match (t.get child).claimed with
    | some i => some i
    | none => Tree.firstIndex (fun n => some (t.get n).items) container child
  nodeCount := t.nodes.size
  span n := (t.get n).span
  tag n := (t.get n).tag

end Drawn

/-- A node of a listed tree, with all of its links. -/
structure ListedNode where
  tag : String
  span : Span
  parent : Option Nat
  children : List Nat
  items : Option (List Nat)
deriving DecidableEq, Repr, Inhabited

/-- A tree given whole. -/
structure Listed where
  root : Nat
  nodes : Array ListedNode

namespace Listed

def get (t : Listed) (n : Nat) : ListedNode := t.nodes.getD n default

/-- The listed tree; the place of an item is where it first occurs. -/
def tree (t : Listed) : Tree Nat where
  root := t.root
  parent n := (t.get n).parent
  children n := (t.get n).children
  items n := (t.get n).items
  indexOf := Tree.firstIndex fun n => (t.get n).items
  nodeCount := t.nodes.size
  span n := (t.get n).span
  tag n := (t.get n).tag

end Listed

end SyntaxQuery
