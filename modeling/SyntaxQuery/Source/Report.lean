import SyntaxQuery.Json.Basic
import SyntaxQuery.Source.Arguments
import SyntaxQuery.Source.Outline
import SyntaxQuery.Source.Shape
import SyntaxQuery.Tree.Scopes

/-!
# Reports

What the questions about a snapshot answer, as plain values: a node, the region of a selection, the
scopes around a position and the arguments of a function.
-/

namespace SyntaxQuery

/-- A node by what it is, where it is and what it says. -/
structure NodeReport where
  tag : String
  span : Span
  text : String
deriving DecidableEq, Repr

/-- The nodes that a selection covers, and the text from the first to the last. -/
structure RegionReport where
  region : Region Nat
  nodes : List NodeReport
  text : String
deriving DecidableEq, Repr

namespace Snapshot

def nodeReport (s : Snapshot) (n : Nat) : NodeReport :=
  ⟨(s.get n).kind, (s.get n).span, s.text n⟩

/-- The innermost node at a position. -/
def nodeReportAt (s : Snapshot) (pos : Position) : Except Error NodeReport :=
  match s.tree.nodeAt pos with
  | .ok n => .ok (s.nodeReport n)
  | .error m => .error m.toError

/-- The node or run of siblings that covers a selection. -/
def regionReportAt (s : Snapshot) (start stop : Position) : Except Error RegionReport :=
  match s.tree.regionAt start stop with
  | .ok r => .ok ⟨r, r.nodes.map s.nodeReport, s.regionText r⟩
  | .error m => .error m.toError

/-- The scopes around a position, innermost first. -/
def scopesAt (s : Snapshot) (pos : Position) : Except Error (List Scope) :=
  match (do s.tree.scopes (← s.tree.nodeAt pos) : Except (Malformed Nat) (List Scope)) with
  | .ok scopes => .ok scopes
  | .error m => .error m.toError

/-- The arguments of the one function that the source defines. -/
def functionArguments (s : Snapshot) : Except Error (List Argument) :=
  match Shape.function.check s with
  | .ok (n :: _) => .ok (s.arguments n)
  | .ok [] => .ok []
  | .error e => .error e.toError

end Snapshot

namespace Position

def toJson (p : Position) : Json :=
  .object [("column", .ofNat p.column.toNat), ("row", .ofNat p.row.toNat)]

end Position

namespace Span

def toJson (s : Span) : Json :=
  .object [("bottom_right", s.bottomRight.toJson), ("top_left", s.topLeft.toJson)]

end Span

namespace NodeReport

def toJson (r : NodeReport) : Json :=
  .object [("span", r.span.toJson), ("text", .text r.text), ("type_tag", .text r.tag)]

end NodeReport

namespace Region

/-- The word for what a selection covers. -/
def kind {ν : Type} : Region ν → String
  | node _ => "node"
  | siblings _ => "siblings"

end Region

namespace RegionReport

def toJson (r : RegionReport) : Json :=
  .object
    [("kind", .text r.region.kind), ("nodes", .array (r.nodes.map NodeReport.toJson)),
     ("text", .text r.text)]

end RegionReport

namespace Scope

def toJson (s : Scope) : Json :=
  .object [("span", s.span.toJson), ("type_tag", .text s.tag)]

end Scope

namespace Argument

def toJson (a : Argument) : Json :=
  .array [.text a.name, .ofOption .text a.default]

end Argument

end SyntaxQuery
