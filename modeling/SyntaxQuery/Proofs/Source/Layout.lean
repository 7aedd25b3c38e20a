import SyntaxQuery.Proofs.Concrete.Preorder
import SyntaxQuery.Proofs.Source.Links
import SyntaxQuery.Proofs.Text.Place

/-!
# Where the nodes of a snapshot stand

A parser is trusted to place its nodes: offsets lie between characters, rows and columns are those
of the offsets, children lie inside their parent and siblings follow each other (`Concrete.Placed`).
The span of a placed node then goes from its first character to its last (`extent_spanOf`), each
step of copying keeps the copied nodes arranged in the source as they are in the tree
(`Arranged.step`), and so the spans of a snapshot are nested (`nested_of_parse`).
-/

namespace SyntaxQuery

open Text

namespace Concrete

/-- The two ends of a node are places in the source. -/
structure Info.Placed (source : String) (i : Info) : Prop where
  start : Text.Placed source i.startByte i.startRow i.startColumn
  stop : Text.Placed source i.endByte i.endRow i.endColumn
  le : i.startByte ≤ i.endByte

/-- All nodes are placed, children inside their parent and siblings one after the other. -/
inductive Placed (source : String) : Concrete → Prop
  | node {i : Info} {cs : List Concrete} (info : i.Placed source)
      (inside : ∀ c ∈ cs, i.startByte ≤ c.info.startByte ∧ c.info.endByte ≤ i.endByte)
      (ordered : cs.Pairwise fun a b => a.info.endByte ≤ b.info.startByte)
      (children : ∀ c ∈ cs, Placed source c) : Placed source (.node i cs)

namespace Placed

variable {source : String} {c : Concrete}

theorem info (h : c.Placed source) : c.info.Placed source := by
  cases h with
  | node info _ _ _ => exact info

theorem of_mem_namedChildren (h : c.Placed source) {d : Concrete} (hd : d ∈ c.namedChildren) :
    d.Placed source := by
  cases h with
  | node _ _ _ children => exact children d (List.mem_of_mem_filter hd)

theorem inside_of_mem_namedChildren (h : c.Placed source) {d : Concrete}
    (hd : d ∈ c.namedChildren) :
    c.info.startByte ≤ d.info.startByte ∧ d.info.endByte ≤ c.info.endByte := by
  cases h with
  | node _ inside _ _ => exact inside d (List.mem_of_mem_filter hd)

theorem ordered_namedChildren (h : c.Placed source) :
    c.namedChildren.Pairwise fun a b => a.info.endByte ≤ b.info.startByte := by
  cases h with
  | node _ _ ordered _ => exact ordered.filter _

end Placed

instance (source : String) (i : Info) : Decidable (i.Placed source) :=
  decidable_of_iff (Text.Placed source i.startByte i.startRow i.startColumn
      ∧ Text.Placed source i.endByte i.endRow i.endColumn ∧ i.startByte ≤ i.endByte)
    ⟨fun h => ⟨h.1, h.2.1, h.2.2⟩, fun h => ⟨h.start, h.stop, h.le⟩⟩

/-- A node is placed as far as it and its children go. -/
def PlacedAt (source : String) (c : Concrete) : Prop :=
  c.info.Placed source
    ∧ (∀ d ∈ c.children, c.info.startByte ≤ d.info.startByte ∧ d.info.endByte ≤ c.info.endByte)
    ∧ c.children.Pairwise fun a b => a.info.endByte ≤ b.info.startByte

instance (source : String) (c : Concrete) : Decidable (c.PlacedAt source) :=
  inferInstanceAs (Decidable (_ ∧ _ ∧ _))

theorem placed_node_iff {source : String} {i : Info} {cs : List Concrete} :
    (node i cs).Placed source ↔ (node i cs).PlacedAt source ∧ ∀ c ∈ cs, c.Placed source := by
  constructor
  · rintro ⟨info, inside, ordered, children⟩
    exact ⟨⟨info, inside, ordered⟩, children⟩
  · rintro ⟨⟨info, inside, ordered⟩, children⟩
    exact .node info inside ordered children

theorem forall_placed_iff (source : String) (cs : List Concrete) :
    (∀ c ∈ cs, c.Placed source) ↔ ∀ d ∈ preorders cs, d.PlacedAt source := by
  induction cs using forest_induction with
  | nil => simp [preorders]
  | cons i ds cs hds hcs =>
    simp only [preorders_cons, List.mem_cons, List.mem_append, or_imp, forall_and, forall_eq]
    rw [placed_node_iff, hds, hcs, and_assoc]

/-- A tree is placed when each of its nodes is. -/
theorem placed_iff_preorder {source : String} {c : Concrete} :
    c.Placed source ↔ ∀ d ∈ c.preorder, d.PlacedAt source := by
  simpa [preorders] using forall_placed_iff source [c]

end Concrete

/-- The parser's tree for the source, if it gives one, is placed in it. -/
def Parser.Places (parser : Parser) (language source : String) : Prop :=
  ∀ tree, parser language source = some tree → tree.Placed source

/-- Bytes `start` to `stop` of the source are whole characters, and `span` goes from the first of
them to the last. -/
def Extent (source : String) (start stop : Nat) (span : Span) : Prop :=
  ∃ before upTo, before <+: upTo ∧ upTo <+: source.toList ∧ byteLength before = start
    ∧ byteLength upTo = stop ∧ span = ⟨positionAfter before, lastPosition upTo⟩

section Extent

variable {source : String}

/-- The columns of the place after `before` can be cut out of the source. -/
theorem slice?_line {before : List Char} (h : before <+: source.toList) :
    slice? source (byteLength before - byteLength (line before)) (byteLength before)
      = some (line before) := by
  obtain ⟨head, hhead⟩ := line_suffix before
  have hlen : byteLength before = byteLength head + byteLength (line before) := by
    rw [← byteLength_append, hhead]
  have hpre : head ++ line before <+: source.toList := by
    rw [hhead]
    exact h
  have := slice?_of_isPrefix hpre
  rwa [hhead, show byteLength head = byteLength before - byteLength (line before) by omega] at this

theorem charColumn_of_isPrefix {before : List Char} (h : before <+: source.toList) :
    Snapshot.charColumn source (byteLength before) (byteLength (line before))
      = (line before).length := by
  unfold Snapshot.charColumn
  rw [slice?_line h]

/-- A span goes from the character after the first place to the character before the second. -/
theorem spanOf_eq (hfits : Fits source.toList) {i : Concrete.Info} {before upTo : List Char}
    (hb : before <+: source.toList) (hu : upTo <+: source.toList)
    (hstart : byteLength before = i.startByte ∧ row before = i.startRow
      ∧ byteLength (line before) = i.startColumn)
    (hstop : byteLength upTo = i.endByte ∧ row upTo = i.endRow
      ∧ byteLength (line upTo) = i.endColumn) :
    Snapshot.spanOf source i = ⟨positionAfter before, lastPosition upTo⟩ := by
  obtain ⟨hbyte, hrow, hcol⟩ := hstart
  obtain ⟨hbyte', hrow', hcol'⟩ := hstop
  have hfb := hfits.of_isPrefix hb
  have hfu := hfits.of_isPrefix hu
  have := row_le_byteLength before
  have := row_le_byteLength upTo
  have := length_line_le_byteLength before
  have := length_line_le_byteLength upTo
  unfold Fits at hfb hfu
  unfold Snapshot.spanOf positionAfter lastPosition
  rw [← hbyte, ← hbyte', ← hrow, ← hrow', ← hcol, ← hcol', charColumn_of_isPrefix hb,
    charColumn_of_isPrefix hu]
  -- Neither rows nor columns are large enough to be clamped.
  rw [UInt32.ofNatClamp_eq_ofNat _ (by omega), UInt32.ofNatClamp_eq_ofNat _ (by omega),
    UInt32.ofNatClamp_eq_ofNat _ (by omega), UInt32.ofNatClamp_eq_ofNat _ (by omega)]

theorem extent_spanOf (hfits : Fits source.toList) {i : Concrete.Info} (h : i.Placed source) :
    Extent source i.startByte i.endByte (Snapshot.spanOf source i) := by
  obtain ⟨before, hb, hstart⟩ := placed_iff.1 h.start
  obtain ⟨upTo, hu, hstop⟩ := placed_iff.1 h.stop
  have hle : before <+: upTo :=
    prefix_of_byteLength_le hb hu (by rw [hstart.1, hstop.1]; exact h.le)
  exact ⟨before, upTo, hle, hu, hstart.1, hstop.1, spanOf_eq hfits hb hu hstart hstop⟩

/-- The character after `before` lies in a span just when its first byte lies between the two ends
of the span. They need not be in order. -/
theorem mem_corners_iff (hfits : Fits source.toList) {first upTo before : List Char} {c : Char}
    (hfirst : first <+: source.toList) (hu : upTo <+: source.toList)
    (hc : before ++ [c] <+: source.toList) :
    positionAfter before ∈ (⟨positionAfter first, lastPosition upTo⟩ : Span)
      ↔ byteLength first ≤ byteLength before ∧ byteLength before < byteLength upTo := by
  have hbefore := (List.prefix_append before [c]).trans hc
  rw [Span.mem_iff]
  refine and_congr ⟨fun hpos => ?_, fun hlen => ?_⟩ ⟨fun hpos => ?_, fun hlen => ?_⟩
  · by_contra hlt
    have := concat_prefix_of_byteLength_lt hc hfirst (not_le.1 hlt)
    exact absurd (positionAfter_lt (hfits.of_isPrefix hfirst) this) (not_lt_of_ge hpos)
  · exact positionAfter_mono (hfits.of_isPrefix hbefore)
      (prefix_of_byteLength_le hfirst hbefore hlen)
  · by_contra hlt
    have := prefix_of_byteLength_le hu hbefore (not_lt.1 hlt)
    exact absurd (lastPosition_lt_positionAfter (hfits.of_isPrefix hbefore) this)
      (not_lt_of_ge hpos)
  · exact positionAfter_le_lastPosition (hfits.of_isPrefix hu)
      (concat_prefix_of_byteLength_lt hc hu hlen)

variable {start stop start' stop' : Nat} {span span' : Span}

theorem Extent.le (hfits : Fits source.toList) (h : Extent source start stop span)
    (h' : Extent source start' stop' span') (hstart : start' ≤ start) (hstop : stop ≤ stop') :
    span ≤ span' := by
  obtain ⟨before, upTo, hle, hu, rfl, rfl, rfl⟩ := h
  obtain ⟨before', upTo', hle', hu', rfl, rfl, rfl⟩ := h'
  have hb := prefix_of_byteLength_le (hle'.trans hu') (hle.trans hu) hstart
  have hupTo := prefix_of_byteLength_le hu hu' hstop
  exact ⟨positionAfter_mono (hfits.of_isPrefix (hle.trans hu)) hb,
    lastPosition_mono (hfits.of_isPrefix hu') hupTo⟩

theorem Extent.before (hfits : Fits source.toList) (h : Extent source start stop span)
    (h' : Extent source start' stop' span') (hle : stop ≤ start') : span.Before span' := by
  obtain ⟨before, upTo, -, hu, rfl, rfl, rfl⟩ := h
  obtain ⟨before', upTo', hle', hu', rfl, rfl, rfl⟩ := h'
  have hb := prefix_of_byteLength_le hu (hle'.trans hu') hle
  exact lastPosition_lt_positionAfter (hfits.of_isPrefix (hle'.trans hu')) hb

theorem Extent.mem_iff (hfits : Fits source.toList) (h : Extent source start stop span)
    {before : List Char} {c : Char} (hc : before ++ [c] <+: source.toList) :
    positionAfter before ∈ span ↔ start ≤ byteLength before ∧ byteLength before < stop := by
  obtain ⟨first, upTo, hle, hu, rfl, rfl, rfl⟩ := h
  exact mem_corners_iff hfits (hle.trans hu) hu hc

/-- A span holds a position just when there is a character for it to hold. -/
theorem Extent.exists_mem_iff (hfits : Fits source.toList) (h : Extent source start stop span) :
    (∃ pos, pos ∈ span) ↔ start < stop := by
  obtain ⟨before, upTo, hle, hu, rfl, rfl, rfl⟩ := h
  constructor
  · rintro ⟨pos, hpos⟩
    by_contra hlt
    have hback := prefix_of_byteLength_le hu (hle.trans hu) (not_lt.1 hlt)
    have := lastPosition_lt_positionAfter (hfits.of_isPrefix (hle.trans hu)) hback
    exact absurd (hpos.1.trans hpos.2) (not_le.2 this)
  · intro hlt
    obtain ⟨_ | ⟨c, rest⟩, rfl⟩ := hle
    · simp at hlt
    · refine ⟨positionAfter before, le_rfl,
        positionAfter_le_lastPosition (hfits.of_isPrefix hu) (c := c) ⟨rest, ?_⟩⟩
      simp

/-- The whole of a character lies in an extent in which it starts. -/
theorem Extent.concat_le (h : Extent source start stop span) {before : List Char} {c : Char}
    (hc : before ++ [c] <+: source.toList) (hlt : byteLength before < stop) :
    byteLength (before ++ [c]) ≤ stop := by
  obtain ⟨first, upTo, -, hu, -, rfl, -⟩ := h
  exact byteLength_le_of_isPrefix (concat_prefix_of_byteLength_lt hc hu hlt)

theorem Extent.exists_slice (h : Extent source start stop span) :
    ∃ cs, slice? source start stop = some cs := by
  obtain ⟨first, upTo, hle, hu, rfl, rfl, -⟩ := h
  exact exists_slice? (hle.trans hu) hu (byteLength_le_of_isPrefix hle)

/-- What stands between two extents can be cut out. -/
theorem Extent.exists_gap (h : Extent source start stop span)
    (h' : Extent source start' stop' span') (hle : stop ≤ start') :
    ∃ cs, slice? source stop start' = some cs := by
  obtain ⟨-, upTo, -, hu, -, rfl, -⟩ := h
  obtain ⟨first, upTo', hfu, hu', rfl, -, -⟩ := h'
  exact exists_slice? hu (hfu.trans hu') hle

end Extent

namespace Snapshot

variable {source : String} {grammar : Grammar} {extra : List String}

/-- The copied nodes stand in the source as their links say, and what is pending comes after the
children that its parent has so far. -/
structure Arranged (source : String) (pending : List Pending) (nodes : Array Node) : Prop where
  extent : ∀ n < nodes.size, Extent source (nodes.getD n default).startByte
    (nodes.getD n default).endByte (nodes.getD n default).span
  inside : ∀ c p, (nodes.getD c default).parent = some p →
    (nodes.getD p default).startByte ≤ (nodes.getD c default).startByte
      ∧ (nodes.getD c default).endByte ≤ (nodes.getD p default).endByte
  ordered : ∀ p, (nodes.getD p default).children.Pairwise fun a b =>
    (nodes.getD a default).endByte ≤ (nodes.getD b default).startByte
  pending_placed : ∀ q ∈ pending, q.tree.Placed source
  pending_inside : ∀ q ∈ pending, ∀ p, q.parent = some p →
    (nodes.getD p default).startByte ≤ q.tree.info.startByte
      ∧ q.tree.info.endByte ≤ (nodes.getD p default).endByte
  pending_after : ∀ q ∈ pending, ∀ p, q.parent = some p →
    ∀ c ∈ (nodes.getD p default).children,
      (nodes.getD c default).endByte ≤ q.tree.info.startByte
  pending_ordered : pending.Pairwise fun q r =>
    q.parent = r.parent → q.tree.info.endByte ≤ r.tree.info.startByte

theorem tree_mem_of_mem_childrenOf {q r : Pending} {id : Nat} (h : r ∈ childrenOf q id) :
    r.tree ∈ q.tree.namedChildren := by
  obtain ⟨c, hc, rfl⟩ := List.mem_map.1 h
  exact hc

theorem ordered_childrenOf {q : Pending} (h : q.tree.Placed source) (id : Nat) :
    (childrenOf q id).Pairwise fun a b =>
      a.parent = b.parent → a.tree.info.endByte ≤ b.tree.info.startByte := by
  refine List.pairwise_map.2 (h.ordered_namedChildren.imp ?_)
  intro a b hab _
  exact hab

theorem startByte_grow {q : Pending} {nodes : Array Node}
    (hq : ∀ p, q.parent = some p → p < nodes.size) (n : Nat) :
    ((grow source grammar extra q nodes).getD n default).startByte
      = if n = nodes.size then q.tree.info.startByte else (nodes.getD n default).startByte :=
  frame_grow Node.startByte (fun _ _ => rfl) hq n

theorem endByte_grow {q : Pending} {nodes : Array Node}
    (hq : ∀ p, q.parent = some p → p < nodes.size) (n : Nat) :
    ((grow source grammar extra q nodes).getD n default).endByte
      = if n = nodes.size then q.tree.info.endByte else (nodes.getD n default).endByte :=
  frame_grow Node.endByte (fun _ _ => rfl) hq n

namespace Arranged

theorem start (hfits : Fits source.toList) {tree : Concrete} (h : tree.Placed source) :
    Arranged source (childrenOf ⟨tree, none, none⟩ 0)
      #[copyOf source grammar extra ⟨tree, none, none⟩] := by
  constructor
  · intro n hn
    obtain rfl : n = 0 := by simpa using hn
    exact extent_spanOf hfits h.info
  · intro c p hp
    cases c <;> exact absurd hp (by simp [copyOf, default, instInhabitedNode.default])
  · intro p
    cases p <;> exact List.Pairwise.nil
  · intro q hq
    exact h.of_mem_namedChildren (tree_mem_of_mem_childrenOf hq)
  · intro q hq p hp
    rw [parent_of_mem_childrenOf hq, Option.some.injEq] at hp
    subst hp
    exact h.inside_of_mem_namedChildren (tree_mem_of_mem_childrenOf hq)
  · intro q hq p hp c hc
    rw [parent_of_mem_childrenOf hq, Option.some.injEq] at hp
    subst hp
    exact absurd hc List.not_mem_nil
  · exact ordered_childrenOf (q := ⟨tree, none, none⟩) h 0

section Step

variable {q : Pending} {rest : List Pending} {nodes : Array Node}

theorem extent_grow (hfits : Fits source.toList) (h : Arranged source (q :: rest) nodes)
    (hl : Linked (q :: rest) nodes) (n : Nat)
    (hn : n < (grow source grammar extra q nodes).size) :
    Extent source ((grow source grammar extra q nodes).getD n default).startByte
      ((grow source grammar extra q nodes).getD n default).endByte
      ((grow source grammar extra q nodes).getD n default).span := by
  rw [size_grow] at hn
  rw [frame_grow (fun n => Extent source n.startByte n.endByte n.span) (fun _ _ => rfl)
    hl.head_lt_size]
  split_ifs with hns
  · exact extent_spanOf hfits (h.pending_placed q List.mem_cons_self).info
  · exact h.extent n (by omega)

theorem inside_grow (h : Arranged source (q :: rest) nodes) (hl : Linked (q :: rest) nodes)
    (c p : Nat)
    (hp : ((grow source grammar extra q nodes).getD c default).parent = some p) :
    ((grow source grammar extra q nodes).getD p default).startByte
        ≤ ((grow source grammar extra q nodes).getD c default).startByte
      ∧ ((grow source grammar extra q nodes).getD c default).endByte
        ≤ ((grow source grammar extra q nodes).getD p default).endByte := by
  have hlt := hl.head_lt_size
  rw [parent_grow hlt] at hp
  simp only [startByte_grow hlt, endByte_grow hlt]
  split_ifs at hp with hcs
  · have hps := (hlt p hp).ne
    rw [if_pos hcs, if_pos hcs, if_neg hps, if_neg hps]
    exact h.pending_inside q List.mem_cons_self p hp
  · have hps : p ≠ nodes.size := ((hl.parent_lt c p hp).trans (lt_size_of_parent hp)).ne
    rw [if_neg hcs, if_neg hcs, if_neg hps, if_neg hps]
    exact h.inside c p hp

theorem ordered_grow (h : Arranged source (q :: rest) nodes) (hl : Linked (q :: rest) nodes)
    (p : Nat) :
    ((grow source grammar extra q nodes).getD p default).children.Pairwise fun a b =>
      ((grow source grammar extra q nodes).getD a default).endByte
        ≤ ((grow source grammar extra q nodes).getD b default).startByte := by
  have hlt := hl.head_lt_size
  simp only [startByte_grow hlt, endByte_grow hlt]
  rw [children_grow hlt, List.pairwise_append]
  refine ⟨(h.ordered p).imp_of_mem fun ha hb hab => ?_, by split_ifs <;> simp, ?_⟩
  · rw [if_neg (hl.child_lt_size ha).ne, if_neg (hl.child_lt_size hb).ne]
    exact hab
  · intro a ha b hb
    split_ifs at hb with hp
    · rw [if_neg (hl.child_lt_size ha).ne, if_pos (List.mem_singleton.1 hb)]
      exact h.pending_after q List.mem_cons_self p hp a ha
    · simp at hb

theorem pending_inside_grow (h : Arranged source (q :: rest) nodes)
    (hl : Linked (q :: rest) nodes) (r : Pending)
    (hr : r ∈ childrenOf q nodes.size ++ rest) (p : Nat) (hp : r.parent = some p) :
    ((grow source grammar extra q nodes).getD p default).startByte ≤ r.tree.info.startByte
      ∧ r.tree.info.endByte ≤ ((grow source grammar extra q nodes).getD p default).endByte := by
  rw [startByte_grow hl.head_lt_size, endByte_grow hl.head_lt_size]
  rcases List.mem_append.1 hr with hr | hr
  · rw [parent_of_mem_childrenOf hr, Option.some.injEq] at hp
    rw [if_pos hp.symm, if_pos hp.symm]
    exact (h.pending_placed q List.mem_cons_self).inside_of_mem_namedChildren
      (tree_mem_of_mem_childrenOf hr)
  · have hps := hl.pending_lt_size (List.mem_cons_of_mem q hr) hp
    rw [if_neg hps.ne, if_neg hps.ne]
    exact h.pending_inside r (List.mem_cons_of_mem q hr) p hp

theorem pending_after_grow (h : Arranged source (q :: rest) nodes)
    (hl : Linked (q :: rest) nodes) (r : Pending)
    (hr : r ∈ childrenOf q nodes.size ++ rest) (p : Nat) (hp : r.parent = some p) (c : Nat)
    (hc : c ∈ ((grow source grammar extra q nodes).getD p default).children) :
    ((grow source grammar extra q nodes).getD c default).endByte ≤ r.tree.info.startByte := by
  have hlt := hl.head_lt_size
  rw [children_grow hlt, List.mem_append] at hc
  rw [endByte_grow hlt]
  rcases List.mem_append.1 hr with hr | hr
  · -- The new node has no children yet.
    rw [parent_of_mem_childrenOf hr, Option.some.injEq] at hp
    rw [← hp, getD_of_size_le le_rfl, if_neg fun hq => (hlt _ hq).ne rfl] at hc
    rcases hc with hc | hc <;> exact absurd hc List.not_mem_nil
  · rcases hc with hc | hc
    · rw [if_neg (hl.child_lt_size hc).ne]
      exact h.pending_after r (List.mem_cons_of_mem q hr) p hp c hc
    · -- The new node comes before what was pending behind it below the same parent.
      split_ifs at hc with hq
      · rw [if_pos (List.mem_singleton.1 hc)]
        exact (List.pairwise_cons.1 h.pending_ordered).1 r hr (hq.trans hp.symm)
      · simp at hc

theorem step (hfits : Fits source.toList) (q : Pending) (rest : List Pending)
    (nodes : Array Node) (hl : Linked (q :: rest) nodes)
    (h : Arranged source (q :: rest) nodes) :
    Arranged source (childrenOf q nodes.size ++ rest) (grow source grammar extra q nodes) := by
  have hplaced := h.pending_placed q List.mem_cons_self
  refine ⟨h.extent_grow hfits hl, h.inside_grow hl, h.ordered_grow hl, ?_,
    h.pending_inside_grow hl, h.pending_after_grow hl, ?_⟩
  · intro r hr
    rcases List.mem_append.1 hr with hr | hr
    · exact hplaced.of_mem_namedChildren (tree_mem_of_mem_childrenOf hr)
    · exact h.pending_placed r (List.mem_cons_of_mem q hr)
  · refine List.pairwise_append.2 ⟨ordered_childrenOf hplaced _,
      (List.pairwise_cons.1 h.pending_ordered).2, fun a ha b hb hab => ?_⟩
    rw [parent_of_mem_childrenOf ha] at hab
    exact absurd (hl.pending_lt_size (List.mem_cons_of_mem q hb) hab.symm) (lt_irrefl _)

end Step

theorem nodesOf (hfits : Fits source.toList) {tree : Concrete} (h : tree.Placed source) :
    Arranged source [] (nodesOf source grammar extra tree) := by
  rw [nodesOf_eq]
  refine (copyNamed_induction (P := fun pending nodes =>
    Linked pending nodes ∧ Arranged source pending nodes) ?_ _ _ ?_).2
  · exact fun q rest nodes h => ⟨h.1.step q rest nodes, h.2.step hfits q rest nodes h.1⟩
  · exact ⟨Linked.start tree, start hfits h⟩

variable {s : Snapshot}

theorem nested (hfits : Fits s.source.toList) (h : Arranged s.source [] s.nodes)
    (hl : Linked [] s.nodes) : s.tree.Nested where
  inside := by
    intro c p hp
    have hc := lt_size_of_parent hp
    obtain ⟨hstart, hend⟩ := h.inside c p hp
    exact (h.extent c hc).le hfits (h.extent p ((hl.parent_lt c p hp).trans hc)) hstart hend
  apart := by
    intro p
    refine (h.ordered p).imp_of_mem fun ha hb hab => ?_
    exact (h.extent _ (hl.child_lt_size ha)).before hfits (h.extent _ (hl.child_lt_size hb)) hab

end Arranged

section Parse

variable {parser : Parser} {options : ParseOptions} {s : Snapshot}

theorem fits_of_size {source : String} (h : source.utf8ByteSize < UInt32.size - 1) :
    Fits source.toList := by
  rw [utf8ByteSize_eq] at h
  exact h

theorem arranged_of_parse (h : parse parser grammar options source = .ok s)
    (hplaces : parser.Places grammar.name source)
    (hsize : source.utf8ByteSize < UInt32.size - 1) : Arranged s.source [] s.nodes := by
  obtain ⟨tree, htree, rfl⟩ := parse_eq_ok h
  exact Arranged.nodesOf (fits_of_size hsize) (hplaces tree htree)

theorem nested_of_parse (h : parse parser grammar options source = .ok s)
    (hplaces : parser.Places grammar.name source)
    (hsize : source.utf8ByteSize < UInt32.size - 1) : s.tree.Nested := by
  have hfits : Fits s.source.toList := by
    rw [source_of_parse h]
    exact fits_of_size hsize
  exact (arranged_of_parse h hplaces hsize).nested hfits (linked_of_parse h)

end Parse

end Snapshot

section Example

namespace Concrete

/-- A node without faults, from byte `start` to byte `stop`. -/
def soundInfo (kind : String) (named : Bool) (field : Option String) (start stop : Nat)
    (startPlace stopPlace : Nat × Nat) : Info where
  kind := kind
  field := field
  named := named
  isError := false
  isMissing := false
  hasError := false
  startByte := start
  endByte := stop
  startRow := startPlace.1
  startColumn := startPlace.2
  endRow := stopPlace.1
  endColumn := stopPlace.2

/-- The tree of `x=é` and, on the next row, `y`. -/
def twoStatements : Concrete :=
  .node (soundInfo "module" true none 0 6 (0, 0) (1, 1))
    [.node (soundInfo "expression_statement" true none 0 4 (0, 0) (0, 4))
      [.node (soundInfo "assignment" true none 0 4 (0, 0) (0, 4))
        [.node (soundInfo "identifier" true (some "left") 0 1 (0, 0) (0, 1)) [],
         .node (soundInfo "=" false none 1 2 (0, 1) (0, 2)) [],
         .node (soundInfo "identifier" true (some "right") 2 4 (0, 2) (0, 4)) []]],
     .node (soundInfo "expression_statement" true none 5 6 (1, 0) (1, 1))
      [.node (soundInfo "identifier" true none 5 6 (1, 0) (1, 1)) []]]

theorem placed_twoStatements : twoStatements.Placed "x=é\ny" :=
  placed_iff_preorder.2 (by decide)

end Concrete

namespace Snapshot

/-- A parser that knows one tree. -/
def twoStatementsParser : Parser := fun _ _ => some Concrete.twoStatements

theorem places_twoStatements : twoStatementsParser.Places "python" "x=é\ny" := by
  intro tree htree
  obtain rfl := Option.some.inj htree
  exact Concrete.placed_twoStatements

/-- The snapshot of `x=é` and `y`. -/
def twoStatementsSnapshot : Snapshot :=
  ⟨"python", "x=é\ny", nodesOf "x=é\ny" Grammar.python [] Concrete.twoStatements⟩

theorem parse_twoStatements :
    parse twoStatementsParser Grammar.python ⟨[], 100⟩ "x=é\ny" = .ok twoStatementsSnapshot := rfl

end Snapshot

end Example

end SyntaxQuery
