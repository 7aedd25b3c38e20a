import SyntaxQuery.Source.Snapshot
import SyntaxQuery.Text.Quoted

/-!
# Outlines

The outline of a snapshot has a line for every node down to a depth below the top level. A node
without children shows its text, a node at the depth limit shows that something is left out.
-/

namespace SyntaxQuery.Snapshot

/-- The depth of an outline when none is asked for. -/
def defaultDepth : Nat := 2

/-- The line of a node up to its span. -/
def outlineHead (s : Snapshot) (level n : Nat) : String :=
  let field := match (s.get n).field with
    | some f => f ++ " -> "
    | none => ""
  String.join (List.replicate level "  ") ++ field ++ (s.get n).kind ++ " [" ++
    (s.get n).span.toText ++ "]"

/-- The lines of `n` and of the nodes at most `depth` levels below it. -/
def outlineFrom (s : Snapshot) : (depth level n : Nat) → List String
  | 0, level, n =>
    if (s.get n).children = [] then
      [s.outlineHead level n ++ " " ++ Text.quoted (s.text n)]
    else [s.outlineHead level n ++ " ..."]
  | depth + 1, level, n =>
    if (s.get n).children = [] then
      [s.outlineHead level n ++ " " ++ Text.quoted (s.text n)]
    else
      s.outlineHead level n ::
        (s.get n).children.flatMap fun c => outlineFrom s depth (level + 1) c

/-- The lines of the outline down to `depth` levels below the top level. -/
def outlineLines (s : Snapshot) (depth : Nat) : List String :=
  s.topLevel.flatMap fun n => s.outlineFrom depth 0 n

def outline (s : Snapshot) (depth : Nat) : String :=
  "\n".intercalate (s.outlineLines depth)

end SyntaxQuery.Snapshot
