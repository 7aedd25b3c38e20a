import SyntaxQuery.Concrete.Basic
import SyntaxQuery.Json.Basic

/-!
# Tables of concrete trees

A concrete tree travels as a table: one row for each node in preorder, with the number of the row
of its parent. `ofRows?` puts the rows together again, from the last to the first, so that each row
finds its children already built. A parser can be given by such tables alone, one for each source
it is asked about.
-/

namespace SyntaxQuery

namespace Concrete

/-- A node and the row of its parent, which the first row does not need. -/
structure Row where
  parent : Nat
  info : Info
deriving DecidableEq, Repr, Inhabited

/-- Build the nodes of `rows`, given last row first. `waiting` holds, for each row, the children
built so far. -/
def assemble : List Row → Array (List Concrete) → Option Concrete
  | [], _ => none
  | [r], waiting => some (.node r.info (waiting.getD 0 []))
  | r :: rest, waiting =>
    let c := Concrete.node r.info (waiting.getD rest.length [])
    assemble rest (waiting.modify r.parent (c :: ·))

/-- The tree whose nodes in preorder are `rows`. -/
def ofRows? (rows : List Row) : Option Concrete :=
  assemble rows.reverse (Array.replicate rows.length [])

open Json in
/-- A row `[parent, kind, flags, field, start byte, end byte, start row, start column, end row,
end column]`; the flags say, from the lowest bit on, whether the node is named, an error, missing,
and whether it holds a fault. -/
def Row.ofJson? : Json → Option Row
  | .array [.number (.integer parent), .text kind, .number (.integer flags), field,
      .number (.integer startByte), .number (.integer endByte),
      .number (.integer startRow), .number (.integer startColumn),
      .number (.integer endRow), .number (.integer endColumn)] =>
    some
      { parent := parent.toNat
        info :=
          { kind := kind
            field := match field with
              | .text f => some f
              | _ => none
            named := flags.toNat.testBit 0
            isError := flags.toNat.testBit 1
            isMissing := flags.toNat.testBit 2
            hasError := flags.toNat.testBit 3
            startByte := startByte.toNat
            endByte := endByte.toNat
            startRow := startRow.toNat
            startColumn := startColumn.toNat
            endRow := endRow.toNat
            endColumn := endColumn.toNat } }
  | _ => none

end Concrete

/-- The concrete tree of one source in one language. -/
structure ParseTable where
  language : String
  source : String
  tree : Concrete

namespace ParseTable

/-- A table `{"language", "source", "nodes"}`. -/
def ofJson? (j : Json) : Option ParseTable :=
  match j.get? "language", j.get? "source", j.get? "nodes" with
  | some (.text language), some (.text source), some (.array rows) => do
    let rows ← rows.mapM Concrete.Row.ofJson?
    let tree ← Concrete.ofRows? rows
    return { language := language, source := source, tree := tree }
  | _, _, _ => none

/-- The tree that the tables give for a source in a language. -/
def find? (tables : List ParseTable) (language source : String) : Option Concrete :=
  (tables.find? fun t => t.language = language ∧ t.source = source).map (·.tree)

end ParseTable

end SyntaxQuery
