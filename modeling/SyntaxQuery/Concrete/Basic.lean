/-!
# Concrete syntax trees

The tree that a parser finds for a source, with every token. Offsets count bytes from the start of
the source, rows count from zero and columns are bytes from the start of the row. A parser that
meets a fault still answers with a tree, in which it marks what it could not read or had to add.
-/

namespace SyntaxQuery

namespace Concrete

/-- What is known of one node. -/
structure Info where
  kind : String
  /-- The field of its parent that the node fills. -/
  field : Option String
  /-- Whether a rule of the grammar has a name for it; plain tokens have none. -/
  named : Bool
  isError : Bool
  isMissing : Bool
  /-- Whether the parser met a fault somewhere in it. -/
  hasError : Bool
  startByte : Nat
  endByte : Nat
  startRow : Nat
  startColumn : Nat
  endRow : Nat
  endColumn : Nat
deriving DecidableEq, Repr, Inhabited

/-- Whether the node is itself a fault. -/
def Info.isFault (i : Info) : Bool := i.isError || i.isMissing

end Concrete

/-- A concrete syntax tree. -/
inductive Concrete where
  | node (info : Concrete.Info) (children : List Concrete)
deriving Repr, Inhabited

namespace Concrete

def info : Concrete → Info
  | node i _ => i

def children : Concrete → List Concrete
  | node _ cs => cs

/-- The children that have a name, in order. -/
def namedChildren (c : Concrete) : List Concrete :=
  c.children.filter fun d => d.info.named

mutual

/-- The number of nodes. -/
def size : Concrete → Nat
  | node _ cs => 1 + sizes cs

/-- The number of nodes of several trees. -/
def sizes : List Concrete → Nat
  | [] => 0
  | c :: cs => c.size + sizes cs

end

theorem size_pos (c : Concrete) : 0 < c.size := by
  cases c with
  | node i cs =>
    rw [size]
    omega

theorem sizes_append (a b : List Concrete) : sizes (a ++ b) = sizes a + sizes b := by
  induction a with
  | nil => simp [sizes]
  | cons c a ih => simp [sizes, ih]; omega

theorem sizes_filter_le (p : Concrete → Bool) (cs : List Concrete) :
    sizes (cs.filter p) ≤ sizes cs := by
  induction cs with
  | nil => simp
  | cons c cs ih =>
    by_cases h : p c <;> simp [h, sizes] <;> omega

theorem sizes_namedChildren_lt (c : Concrete) : sizes c.namedChildren < c.size := by
  cases c with
  | node i cs =>
    have := sizes_filter_le (fun d => d.info.named) cs
    simp only [namedChildren, children, size]
    omega

mutual

/-- The first fault in preorder. Below a node that reports no fault none is looked for. -/
def firstFault? : Concrete → Option Info
  | node i cs =>
    if i.isFault then some i
    else if i.hasError then firstFaults? cs
    else none

/-- The first fault of several trees. -/
def firstFaults? : List Concrete → Option Info
  | [] => none
  | c :: cs =>
    match c.firstFault? with
    | some i => some i
    | none => firstFaults? cs

end

end Concrete

end SyntaxQuery
