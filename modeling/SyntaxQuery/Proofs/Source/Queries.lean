import SyntaxQuery.Proofs.Source.Layout
import SyntaxQuery.Proofs.Tree.Region
import SyntaxQuery.Proofs.Tree.Scopes
import SyntaxQuery.Source.Report

/-!
# What the questions about a snapshot mean

A snapshot of a source that a trusted parser has placed is a numbered tree with nested spans, so the
questions about it have a meaning of their own, which does not speak of walks: the node at a
position is the innermost one that holds it (`nodeAt_parsed_innermost`), the region of a selection
is what the selection means (`regionAt_parsed_selects`), and the scopes at a position are the spans
of all nodes but the root that hold it, from the innermost out (`scopesAt_parsed`).
-/

namespace SyntaxQuery

namespace Snapshot

variable {parser : Parser} {grammar : Grammar} {options : ParseOptions} {source : String}
  {s : Snapshot}

theorem nodeAt_parsed_innermost (hparse : parse parser grammar options source = .ok s)
    (hplaces : parser.Places grammar.name source) (hsize : source.utf8ByteSize < UInt32.size - 1)
    (pos : Position) :
    ∃ n, s.tree.nodeAt pos = .ok n ∧ n < s.nodes.size
      ∧ (pos ∈ (s.get n).span ∨ n = 0)
      ∧ (∀ m < s.nodes.size, pos ∈ (s.get m).span → s.tree.Above m n)
      ∧ (pos ∈ (s.get n).span → ∃ chain, s.tree.Lineage n chain
          ∧ ∀ m < s.nodes.size, pos ∈ (s.get m).span ↔ m ∈ chain)
      ∧ (pos ∉ (s.get n).span → ∀ m < s.nodes.size, pos ∉ (s.get m).span)
      ∧ ((∀ m < s.nodes.size, m ≠ 0 → pos ∉ (s.get m).span) → n = 0)
      ∧ ∀ n' < s.nodes.size, (pos ∈ (s.get n').span ∨ n' = 0) →
          (∀ m < s.nodes.size, pos ∈ (s.get m).span → s.tree.Above m n') → n' = n := by
  have h := numbered_of_parse hparse
  have hs := nested_of_parse hparse hplaces hsize
  obtain ⟨n, hn, hinner⟩ := Tree.nodeAt_innermost h hs pos
  refine ⟨n, hn, hinner.lt_nodeCount, hinner.mem_or_root, hinner.above, ?_, ?_, ?_, ?_⟩
  · intro hmem
    obtain ⟨chain, hchain, -⟩ := h.exists_lineage n hinner.lt_nodeCount
    refine ⟨chain, hchain, fun m hm => ?_⟩
    rw [hchain.mem_iff_above h.parent_root']
    exact hinner.mem_iff_above hs hmem hm
  · intro hmem m hm hmem'
    obtain rfl := hinner.mem_or_root.resolve_left hmem
    rw [← h.eq_root_of_above (hinner.above m hm hmem')] at hmem
    exact hmem hmem'
  · intro hnone
    by_contra hne
    exact hnone n hinner.lt_nodeCount hne (hinner.mem_of_ne_root hne)
  · intro n' hlt hor habove
    exact hinner.unique h ⟨hlt, hor, habove⟩

/-- At the `é` of `x=é`. -/
theorem nodeAt_twoStatements :
    twoStatementsSnapshot.tree.nodeAt ⟨1, 3⟩ = .ok 4
      ∧ (∀ m < twoStatementsSnapshot.nodes.size, (⟨1, 3⟩ : Position) ∈
          (twoStatementsSnapshot.get m).span → twoStatementsSnapshot.tree.Above m 4) := by
  have hn : twoStatementsSnapshot.tree.nodeAt ⟨1, 3⟩ = .ok 4 := by decide +kernel
  obtain ⟨n, hn', -, -, habove, -⟩ := nodeAt_parsed_innermost parse_twoStatements
    places_twoStatements (by decide) ⟨1, 3⟩
  rw [hn, Except.ok.injEq] at hn'
  subst hn'
  exact ⟨hn, habove⟩

theorem regionAt_parsed_selects (hparse : parse parser grammar options source = .ok s)
    (hplaces : parser.Places grammar.name source) (hsize : source.utf8ByteSize < UInt32.size - 1)
    (start stop : Position) :
    ∃ r, s.tree.regionAt start stop = .ok r ∧ s.tree.Selects start stop r
      ∧ ∀ r', s.tree.Selects start stop r' → r' = r := by
  have h := numbered_of_parse hparse
  have hs := nested_of_parse hparse hplaces hsize
  obtain ⟨r, hr, hsel⟩ := Tree.regionAt_selects h hs start stop
  exact ⟨r, hr, hsel, fun r' hr' => hr'.unique h hs hsel⟩

/-- From the `y` back to the `é`: both statements, in order. -/
theorem regionAt_twoStatements :
    twoStatementsSnapshot.tree.regionAt ⟨2, 1⟩ ⟨1, 3⟩ = .ok (.siblings [1, 5])
      ∧ twoStatementsSnapshot.tree.Selects ⟨2, 1⟩ ⟨1, 3⟩ (.siblings [1, 5]) := by
  have hr : twoStatementsSnapshot.tree.regionAt ⟨2, 1⟩ ⟨1, 3⟩ = .ok (.siblings [1, 5]) := by
    decide +kernel
  obtain ⟨r, hr', hsel, -⟩ := regionAt_parsed_selects parse_twoStatements places_twoStatements
    (by decide) ⟨2, 1⟩ ⟨1, 3⟩
  rw [hr, Except.ok.injEq] at hr'
  subst hr'
  exact ⟨hr, hsel⟩

theorem scopesAt_parsed (hparse : parse parser grammar options source = .ok s)
    (hplaces : parser.Places grammar.name source) (hsize : source.utf8ByteSize < UInt32.size - 1)
    (pos : Position) :
    ∃ chain, s.scopesAt pos = .ok chain
      ∧ (chain.map (·.span)).Nodup
      ∧ (∀ span, span ∈ chain.map (·.span)
          ↔ ∃ n < s.nodes.size, n ≠ 0 ∧ (s.get n).span = span ∧ pos ∈ span)
      ∧ chain.Pairwise (fun inner outer => inner.span < outer.span)
      ∧ (∀ e ∈ chain, pos ∈ e.span)
      ∧ (∀ e ∈ chain, ∃ n < s.nodes.size, n ≠ 0 ∧ (s.get n).span = e.span
          ∧ (s.get n).kind = e.tag ∧ ∀ m < s.nodes.size, m ≠ 0 → (s.get m).span = e.span →
            m = n ∨ s.tree.Above n m ∧ s.tree.Shallower n m)
      ∧ (chain = [] ↔ ∀ n < s.nodes.size, n ≠ 0 → pos ∉ (s.get n).span) := by
  have h := numbered_of_parse hparse
  have hs := nested_of_parse hparse hplaces hsize
  obtain ⟨n, hn, hinner⟩ := Tree.nodeAt_innermost h hs pos
  obtain ⟨l, hanc, hl⟩ := h.exists_ancestors hinner.lt_nodeCount
  have hscopes := Tree.scopes_eq_collapse hl (Tree.ancestors_eq_ok_iff.1 hanc).2
  have hpair := Tree.pairwise_collapse (Tree.pairwise_scopes h hs hl)
  have hspans := Tree.mem_spans_iff h hs hinner hl
  have hmem : ∀ e ∈ Tree.collapse (l.dropLast.map s.tree.scopeOf), pos ∈ e.span := by
    intro e he
    obtain ⟨m, -, -, -, hpos⟩ := (hspans e.span).1 (List.mem_map_of_mem he)
    exact hpos
  refine ⟨_, ?_, ?_, hspans, hpair, hmem,
    fun e he => Tree.outermost_of_mem_scopes h hs hinner hl he, ?_⟩
  · simp only [scopesAt, hn, hscopes, bind, Except.bind]
  · exact List.pairwise_map.2 (hpair.imp fun hlt => hlt.ne)
  · constructor
    · intro hnil m hm hne hpos
      have := (hspans (s.get m).span).2 ⟨m, hm, hne, rfl, hpos⟩
      rw [hnil] at this
      exact absurd this List.not_mem_nil
    · intro hnone
      refine List.eq_nil_iff_forall_not_mem.2 fun e he => ?_
      obtain ⟨m, hm, hne, hspan, hpos⟩ := (hspans e.span).1 (List.mem_map_of_mem he)
      rw [← hspan] at hpos
      exact hnone m hm hne hpos

/-- Around the `é` of `x=é`: the statement stands for the assignment in it too. -/
theorem scopesAt_twoStatements :
    twoStatementsSnapshot.scopesAt ⟨1, 3⟩ =
        .ok [⟨"identifier", ⟨⟨1, 3⟩, ⟨1, 3⟩⟩⟩, ⟨"expression_statement", ⟨⟨1, 1⟩, ⟨1, 3⟩⟩⟩]
      ∧ ∀ span, span ∈ [(⟨⟨1, 3⟩, ⟨1, 3⟩⟩ : Span), ⟨⟨1, 1⟩, ⟨1, 3⟩⟩]
          ↔ ∃ n < twoStatementsSnapshot.nodes.size, n ≠ 0
            ∧ (twoStatementsSnapshot.get n).span = span ∧ ⟨1, 3⟩ ∈ span := by
  have hc : twoStatementsSnapshot.scopesAt ⟨1, 3⟩ =
      .ok [⟨"identifier", ⟨⟨1, 3⟩, ⟨1, 3⟩⟩⟩, ⟨"expression_statement", ⟨⟨1, 1⟩, ⟨1, 3⟩⟩⟩] := by
    decide +kernel
  obtain ⟨chain, hc', -, hspans, -⟩ := scopesAt_parsed parse_twoStatements places_twoStatements
    (by decide) ⟨1, 3⟩
  rw [hc, Except.ok.injEq] at hc'
  subst hc'
  exact ⟨hc, hspans⟩

end Snapshot

end SyntaxQuery
