import SyntaxQuery.Concrete.Basic
import SyntaxQuery.Grammar
import SyntaxQuery.Text.Utf8
import SyntaxQuery.Tree.Region

/-!
# Snapshots of a parsed source

A snapshot keeps the root and the named nodes below it in one array, in preorder, so that the
number of a node is its identity. `copyNamed` fills the array from a concrete tree with a stack of
the nodes that are still to be copied.

Spans are in rows and characters: the top left is the first character of a node and the bottom
right its last, so a node without characters has a span that holds no position.
-/

namespace SyntaxQuery

/-- A node of a snapshot. -/
structure Node where
  kind : String
  /-- The field of its parent that the node fills. -/
  field : Option String
  parent : Option Nat
  children : List Nat
  /-- Whether its children are items of an ordered container. -/
  container : Bool
  startByte : Nat
  endByte : Nat
  span : Span
deriving DecidableEq, Repr, Inhabited

/-- A parsed source. -/
structure Snapshot where
  language : String
  source : String
  nodes : Array Node
deriving DecidableEq, Repr

/-- How a source is parsed. -/
structure ParseOptions where
  /-- Kinds that are containers besides those of the grammar. -/
  extra : List String
  maxBytes : Nat
deriving DecidableEq, Repr

/-- A parser's concrete tree for a source in a language, if it gives one. -/
abbrev Parser := (language source : String) → Option Concrete

/-- Why a source has no snapshot. -/
inductive ParseError where
  | tooLarge (maxBytes size : Nat)
  | noTree
  | fault (place : Position) (missing : Bool) (kind : String)
deriving DecidableEq, Repr

namespace Snapshot

/-- The number of characters between the start of the row and `byte`, which is `column` bytes into
it. A column that cuts through a character counts as it is. -/
def charColumn (source : String) (byte column : Nat) : Nat :=
  match Text.slice? source (byte - column) byte with
  | some cs => cs.length
  | none => column

/-- The span of a node: from its first character to its last. Numbers too large for a position
stop at the largest. -/
def spanOf (source : String) (i : Concrete.Info) : Span where
  topLeft :=
    ⟨UInt32.ofNatClamp (i.startRow + 1),
     UInt32.ofNatClamp (charColumn source i.startByte i.startColumn + 1)⟩
  bottomRight :=
    ⟨UInt32.ofNatClamp (i.endRow + 1),
     UInt32.ofNatClamp (charColumn source i.endByte i.endColumn)⟩

/-- A concrete node that is still to be copied. -/
structure Pending where
  tree : Concrete
  parent : Option Nat
  field : Option String

/-- Whether a node of this kind is a container. -/
def isContainer (grammar : Grammar) (extra : List String) (parent : Option Nat) (kind : String) :
    Bool :=
  parent.isNone || grammar.containers.contains kind || extra.contains kind

/-- The copy of a pending node, before any of its children is copied. -/
def copyOf (source : String) (grammar : Grammar) (extra : List String) (p : Pending) : Node where
  kind := p.tree.info.kind
  field := p.field
  parent := p.parent
  children := []
  container := isContainer grammar extra p.parent p.tree.info.kind
  startByte := p.tree.info.startByte
  endByte := p.tree.info.endByte
  span := spanOf source p.tree.info

/-- Enter `id` as the last child of its parent. -/
def link (nodes : Array Node) (parent : Option Nat) (id : Nat) : Array Node :=
  match parent with
  | none => nodes
  | some p => nodes.modify p fun n => { n with children := n.children ++ [id] }

/-- The named children of a pending node, which is copied as `id`. -/
def childrenOf (p : Pending) (id : Nat) : List Pending :=
  p.tree.namedChildren.map fun c => ⟨c, some id, c.info.field⟩

/-- Copy the pending nodes and all named nodes below them, in preorder. -/
def copyNamed (source : String) (grammar : Grammar) (extra : List String) :
    List Pending → Array Node → Array Node
  | [], nodes => nodes
  | p :: rest, nodes =>
    let id := nodes.size
    let nodes := link (nodes.push (copyOf source grammar extra p)) p.parent id
    copyNamed source grammar extra (childrenOf p id ++ rest) nodes
termination_by pending => Concrete.sizes (pending.map (·.tree))
decreasing_by
  have := Concrete.sizes_namedChildren_lt p.tree
  simp only [childrenOf, List.map_append, List.map_map, Concrete.sizes_append, List.map_cons,
    Concrete.sizes, Function.comp_def, List.map_id']
  omega

/-- The nodes of a snapshot of `tree`. -/
def nodesOf (source : String) (grammar : Grammar) (extra : List String) (tree : Concrete) :
    Array Node :=
  copyNamed source grammar extra [⟨tree, none, none⟩] #[]

/-- Parse a source of a limited size; a tree with a fault is refused. -/
def parse (parser : Parser) (grammar : Grammar) (options : ParseOptions) (source : String) :
    Except ParseError Snapshot :=
  if options.maxBytes < source.utf8ByteSize then
    .error (.tooLarge options.maxBytes source.utf8ByteSize)
  else
    match parser grammar.name source with
    | none => .error .noTree
    | some tree =>
      match tree.firstFault? with
      | some i => .error (.fault (spanOf source i).topLeft i.isMissing i.kind)
      | none =>
        .ok { language := grammar.name, source := source,
              nodes := nodesOf source grammar options.extra tree }

def get (s : Snapshot) (n : Nat) : Node := s.nodes.getD n default

/-- The children of the root. -/
def topLevel (s : Snapshot) : List Nat := (s.get 0).children

/-- The items of a node that is a container. -/
def items (s : Snapshot) (n : Nat) : Option (List Nat) :=
  if (s.get n).container then some (s.get n).children else none

/-- The snapshot as a tree over the numbers of its nodes. -/
def tree (s : Snapshot) : Tree Nat where
  root := 0
  parent n := (s.get n).parent
  children n := (s.get n).children
  items := s.items
  indexOf := Tree.firstIndex s.items
  nodeCount := s.nodes.size
  span n := (s.get n).span
  tag n := (s.get n).kind

/-- The source text of a node. -/
def text (s : Snapshot) (n : Nat) : String :=
  Text.slice s.source (s.get n).startByte (s.get n).endByte

/-- The source text from the first node of a region to its last. -/
def regionText (s : Snapshot) (r : Region Nat) : String :=
  match r.nodes.head?, r.nodes.getLast? with
  | some first, some last => Text.slice s.source (s.get first).startByte (s.get last).endByte
  | _, _ => ""

/-- The first child of `n` that fills `field`. -/
def childByField (s : Snapshot) (n : Nat) (field : String) : Option Nat :=
  (s.get n).children.find? fun c => (s.get c).field = some field

end Snapshot

end SyntaxQuery
