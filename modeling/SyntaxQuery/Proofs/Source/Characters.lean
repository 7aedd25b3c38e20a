import SyntaxQuery.Proofs.Source.Layout

/-!
# Characters in a span

The span of a node speaks of rows and characters, its ends are given in bytes. On a source whose
numbers fit into a position nothing is cut short on the way from one to the other (`Counted`). So a
character stands in the span just when its first byte lies between the two ends, whether it takes
one byte or several and whether it is a line break or not.

Byte ranges that touch become spans that do not: children stay inside their parent, siblings come
strictly one after the other, and a node without characters holds no position
(`spans_parsed_nested`).
-/

namespace SyntaxQuery

open Text

/-- The row and the column of a place are taken as they are: no number is cut off at zero or at the
largest word, and the bytes of the column are the characters `cs`. -/
structure Counted (source : String) (byte r column : Nat) (cs : List Char) : Prop where
  row_lt : r + 1 < UInt32.size
  column_le : column ≤ byte
  slice_eq : slice? source (byte - column) byte = some cs
  length_lt : cs.length + 1 < UInt32.size

theorem counted_line {source : String} (hfits : Fits source.toList) {before : List Char}
    (h : before <+: source.toList) {byte r column : Nat}
    (hplace : byteLength before = byte ∧ row before = r ∧ byteLength (line before) = column) :
    Counted source byte r column (line before) := by
  obtain ⟨rfl, rfl, rfl⟩ := hplace
  have hfb := hfits.of_isPrefix h
  have hrow := row_le_byteLength before
  have hline := length_line_le_byteLength before
  unfold Fits at hfb
  refine ⟨by omega, ?_, slice?_line h, by omega⟩
  obtain ⟨head, hhead⟩ := line_suffix before
  have := congrArg byteLength hhead
  rw [byteLength_append] at this
  omega

theorem mem_spanOf_iff {source : String} (hsize : source.utf8ByteSize < UInt32.size - 1)
    {i : Concrete.Info} (hstart : Text.Placed source i.startByte i.startRow i.startColumn)
    (hstop : Text.Placed source i.endByte i.endRow i.endColumn) :
    (∀ before c after, source.toList = before ++ c :: after →
      ∃ pos : Position, pos.row.toNat = 1 + row before
        ∧ pos.column.toNat = 1 + (line before).length
        ∧ (pos ∈ Snapshot.spanOf source i
            ↔ i.startByte ≤ byteLength before ∧ byteLength before < i.endByte))
      ∧ ∃ cs ds, Counted source i.startByte i.startRow i.startColumn cs
        ∧ Counted source i.endByte i.endRow i.endColumn ds
        ∧ (Snapshot.spanOf source i).topLeft.row.toNat = i.startRow + 1
        ∧ (Snapshot.spanOf source i).topLeft.column.toNat = cs.length + 1
        ∧ (Snapshot.spanOf source i).bottomRight.row.toNat = i.endRow + 1
        ∧ (Snapshot.spanOf source i).bottomRight.column.toNat = ds.length := by
  have hfits : Fits source.toList := Snapshot.fits_of_size hsize
  obtain ⟨first, hf, hfirst⟩ := placed_iff.1 hstart
  obtain ⟨upTo, hu, hupTo⟩ := placed_iff.1 hstop
  have hspan := spanOf_eq hfits hf hu hfirst hupTo
  have hff := hfits.of_isPrefix hf
  have hfu := hfits.of_isPrefix hu
  refine ⟨fun before c after hsource => ?_, line first, line upTo, ?_⟩
  · have hc : before ++ [c] <+: source.toList := ⟨after, by rw [hsource, List.append_assoc]; rfl⟩
    have hfb := hfits.of_isPrefix ((List.prefix_append before [c]).trans hc)
    refine ⟨positionAfter before, ?_, ?_, ?_⟩
    · rw [positionAfter_row hfb, Nat.add_comm]
    · rw [positionAfter_column hfb, Nat.add_comm]
    · rw [hspan, mem_corners_iff hfits hf hu hc, hfirst.1, hupTo.1]
  · refine ⟨counted_line hfits hf hfirst, counted_line hfits hu hupTo, ?_⟩
    rw [hspan, ← hfirst.2.1, ← hupTo.2.1]
    exact ⟨positionAfter_row hff, positionAfter_column hff, lastPosition_row hfu,
      lastPosition_column hfu⟩

/-- A node from the `é` of `x=é` to the end of the row, whose span ends at column 0 of the next row:
the line break, at byte 4, stands in it. -/
theorem mem_spanOf_lineBreak :
    (⟨1, 4⟩ : Position) ∈
      Snapshot.spanOf "x=é\ny" (Concrete.soundInfo "string" true none 2 5 (0, 2) (1, 0)) := by
  obtain ⟨hmem, -⟩ := @mem_spanOf_iff "x=é\ny" (by decide)
    (Concrete.soundInfo "string" true none 2 5 (0, 2) (1, 0)) (by decide) (by decide)
  obtain ⟨pos, hrow, hcolumn, hiff⟩ := hmem ['x', '=', 'é'] '\n' ['y'] rfl
  have hpos : pos = ⟨1, 4⟩ := Position.eq_iff.2 ⟨hrow, hcolumn⟩
  rw [hpos] at hiff
  exact hiff.2 (by decide)

namespace Snapshot

theorem spans_parsed_nested {parser : Parser} {grammar : Grammar} {options : ParseOptions}
    {source : String} {s : Snapshot} (hparse : parse parser grammar options source = .ok s)
    (hplaces : parser.Places grammar.name source)
    (hsize : source.utf8ByteSize < UInt32.size - 1) :
    (∀ p, ∀ c ∈ (s.get p).children,
      (s.get p).span.topLeft ≤ (s.get c).span.topLeft
        ∧ (s.get c).span.bottomRight ≤ (s.get p).span.bottomRight)
    ∧ (∀ p, (s.get p).children.Pairwise fun a b =>
        (s.get a).span.bottomRight < (s.get b).span.topLeft
          ∧ ∀ pos, ¬ (pos ∈ (s.get a).span ∧ pos ∈ (s.get b).span))
    ∧ ∀ n < s.nodes.size,
        (∃ pos, pos ∈ (s.get n).span) ↔ (s.get n).startByte < (s.get n).endByte := by
  have hnum := numbered_of_parse hparse
  have hnested := nested_of_parse hparse hplaces hsize
  have harranged := arranged_of_parse hparse hplaces hsize
  refine ⟨fun p c hc => ?_, fun p => ?_, fun n hn => ?_⟩
  · exact hnested.inside (hnum.mem_children.1 hc)
  · refine (hnested.apart p).imp fun {a b} hab => ⟨hab, fun pos hpos => ?_⟩
    exact hab.not_mem hpos.1 hpos.2
  · rw [source_of_parse hparse] at harranged
    exact (harranged.extent n hn).exists_mem_iff (fits_of_size hsize)

end Snapshot

section Example

/-- The tree of `def é():` and, on the next row, `pass`. As that row is not indented, it is not in
the function, whose body has no characters. -/
def Concrete.unindented : Concrete :=
  .node (soundInfo "module" true none 0 15 (0, 0) (2, 0))
    [.node (soundInfo "function_definition" true none 0 9 (0, 0) (0, 9))
      [.node (soundInfo "def" false none 0 3 (0, 0) (0, 3)) [],
       .node (soundInfo "identifier" true (some "name") 4 6 (0, 4) (0, 6)) [],
       .node (soundInfo "parameters" true (some "parameters") 6 8 (0, 6) (0, 8))
        [.node (soundInfo "(" false none 6 7 (0, 6) (0, 7)) [],
         .node (soundInfo ")" false none 7 8 (0, 7) (0, 8)) []],
       .node (soundInfo ":" false none 8 9 (0, 8) (0, 9)) [],
       .node (soundInfo "block" true (some "body") 9 9 (0, 9) (0, 9)) []],
     .node (soundInfo "pass_statement" true none 10 14 (1, 0) (1, 4))
      [.node (soundInfo "pass" false none 10 14 (1, 0) (1, 4)) []]]

namespace Snapshot

def unindentedSnapshot : Snapshot :=
  ⟨"python", "def é():\npass\n",
    nodesOf "def é():\npass\n" Grammar.python [] Concrete.unindented⟩

/-- The name and the parameters touch, and the body holds nothing. -/
theorem spans_unindented :
    unindentedSnapshot.nodes.map (·.span) =
        #[⟨⟨1, 1⟩, ⟨3, 0⟩⟩, ⟨⟨1, 1⟩, ⟨1, 8⟩⟩, ⟨⟨1, 5⟩, ⟨1, 5⟩⟩, ⟨⟨1, 6⟩, ⟨1, 7⟩⟩, ⟨⟨1, 9⟩, ⟨1, 8⟩⟩,
          ⟨⟨2, 1⟩, ⟨2, 4⟩⟩]
      ∧ (unindentedSnapshot.get 2).span.bottomRight < (unindentedSnapshot.get 3).span.topLeft
      ∧ (unindentedSnapshot.get 3).span.bottomRight < (unindentedSnapshot.get 4).span.topLeft
      ∧ ¬ ∃ pos, pos ∈ (unindentedSnapshot.get 4).span := by
  have hparse : parse (fun _ _ => some Concrete.unindented) Grammar.python ⟨[], 100⟩
      "def é():\npass\n" = .ok unindentedSnapshot := rfl
  have hplaced : Concrete.unindented.Placed "def é():\npass\n" :=
    Concrete.placed_iff_preorder.2 (by decide)
  obtain ⟨-, hsiblings, hempty⟩ := spans_parsed_nested hparse
    (fun tree htree => Option.some.inj htree ▸ hplaced) (by decide)
  have hchildren : (unindentedSnapshot.get 1).children = [2, 3, 4] := by decide +kernel
  have hpair := hsiblings 1
  rw [hchildren] at hpair
  obtain ⟨h1, h23⟩ := List.pairwise_cons.1 hpair
  refine ⟨by decide +kernel, (h1 3 (by simp)).1, ((List.pairwise_cons.1 h23).1 4 (by simp)).1, ?_⟩
  rw [hempty 4 (by decide +kernel)]
  decide +kernel

end Snapshot

end Example

end SyntaxQuery
