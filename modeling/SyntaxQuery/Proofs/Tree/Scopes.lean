import SyntaxQuery.Proofs.Tree.Nested

/-!
# The scopes around a position

The scopes of a node are the nodes of its lineage without the root, where of neighbours with one
span only the outermost stays (`scopes_eq_collapse`). When each span lies inside the next, equal
spans are always neighbours: then no span comes twice (`pairwise_collapse`), none is lost
(`exists_mem_collapse`), and a scope is the outermost of all with its span
(`split_of_mem_collapse`). The nodes on the lineage of the innermost node at a position are just
the nodes that hold it (`mem_dropLast_lineage_iff`).
-/

namespace SyntaxQuery.Tree

/-- Of neighbours with one span only the last stays. -/
def collapse : List Scope → List Scope
  | [] => []
  | [s] => [s]
  | s :: s' :: rest =>
    if s.span = s'.span then collapse (s' :: rest) else s :: collapse (s' :: rest)

section Collapse

theorem collapse_ne_nil {ss : List Scope} (h : ss ≠ []) : collapse ss ≠ [] := by
  fun_induction collapse ss with
  | case1 => exact absurd rfl h
  | case2 s => simp
  | case3 s s' rest _ ih => exact ih (by simp)
  | case4 s s' rest _ ih => simp

theorem enclose_append (s : Scope) {outer : List Scope} (h : outer ≠ []) (inner : List Scope) :
    enclose s (outer ++ inner) = enclose s outer ++ inner := by
  cases outer with
  | nil => exact absurd rfl h
  | cons o outer =>
    rw [List.cons_append, enclose, enclose]
    split_ifs <;> rfl

/-- One more scope outside takes the place of the outermost that stayed if both have one span. -/
theorem collapse_concat (ss : List Scope) (s : Scope) :
    collapse (ss ++ [s]) = (enclose s (collapse ss).reverse).reverse := by
  fun_induction collapse ss with
  | case1 => rfl
  | case2 a =>
    rw [List.singleton_append, List.reverse_singleton, collapse, enclose]
    split_ifs <;> rfl
  | case3 a b rest hab ih =>
    rw [List.cons_append, List.cons_append, collapse, if_pos hab]
    exact ih
  | case4 a b rest hab ih =>
    have hne : (collapse (b :: rest)).reverse ≠ [] := by
      rw [ne_eq, List.reverse_eq_nil_iff]
      exact collapse_ne_nil (List.cons_ne_nil b rest)
    rw [List.cons_append, List.cons_append, collapse, if_neg hab, List.reverse_cons,
      enclose_append s hne, List.reverse_append, List.reverse_singleton, List.singleton_append]
    exact congrArg (a :: ·) ih

theorem foldl_enclose_eq (ss : List Scope) :
    ss.foldl (fun scopes s => enclose s scopes) [] = (collapse ss).reverse := by
  induction ss using List.reverseRecOn with
  | nil => rfl
  | append_singleton ss s ih =>
    rw [List.foldl_append, ih, collapse_concat, List.reverse_reverse]
    rfl

theorem mem_of_mem_collapse {ss : List Scope} {e : Scope} (h : e ∈ collapse ss) : e ∈ ss := by
  fun_induction collapse ss with
  | case1 => exact h
  | case2 s => exact h
  | case3 s s' rest _ ih => exact List.mem_cons_of_mem s (ih h)
  | case4 s s' rest _ ih =>
    rcases List.mem_cons.1 h with rfl | h
    · exact List.mem_cons_self
    · exact List.mem_cons_of_mem s (ih h)

/-- No span is lost. -/
theorem exists_mem_collapse {ss : List Scope} {e : Scope} (h : e ∈ ss) :
    ∃ e' ∈ collapse ss, e'.span = e.span := by
  fun_induction collapse ss generalizing e with
  | case1 => exact absurd h List.not_mem_nil
  | case2 s => exact ⟨e, h, rfl⟩
  | case3 s s' rest hspan ih =>
    rcases List.mem_cons.1 h with rfl | h
    · rw [hspan]
      exact ih List.mem_cons_self
    · exact ih h
  | case4 s s' rest _ ih =>
    rcases List.mem_cons.1 h with rfl | h
    · exact ⟨e, List.mem_cons_self, rfl⟩
    · obtain ⟨e', he', hspan⟩ := ih h
      exact ⟨e', List.mem_cons_of_mem s he', hspan⟩

/-- The first of scopes with nested spans, unless its span is that of the second, is smaller than
all others. -/
theorem span_lt_of_pairwise {s s' : Scope} {rest : List Scope}
    (h : (s :: s' :: rest).Pairwise fun inner outer => inner.span ≤ outer.span)
    (hne : s.span ≠ s'.span) {e : Scope} (he : e ∈ s' :: rest) : s.span < e.span := by
  have hcons := List.pairwise_cons.1 h
  have hlt := lt_of_le_of_ne (hcons.1 s' List.mem_cons_self) hne
  rcases List.mem_cons.1 he with rfl | he
  · exact hlt
  · exact hlt.trans_le ((List.pairwise_cons.1 hcons.2).1 e he)

theorem pairwise_collapse {ss : List Scope}
    (h : ss.Pairwise fun inner outer => inner.span ≤ outer.span) :
    (collapse ss).Pairwise fun inner outer => inner.span < outer.span := by
  fun_induction collapse ss with
  | case1 => exact List.Pairwise.nil
  | case2 s => exact List.pairwise_singleton _ s
  | case3 s s' rest _ ih => exact ih (List.pairwise_cons.1 h).2
  | case4 s s' rest hne ih =>
    refine List.pairwise_cons.2 ⟨fun e he => ?_, ih (List.pairwise_cons.1 h).2⟩
    exact span_lt_of_pairwise h hne (mem_of_mem_collapse he)

/-- A scope that stays is the last with its span. -/
theorem split_of_mem_collapse {ss : List Scope} {e : Scope}
    (h : ss.Pairwise fun inner outer => inner.span ≤ outer.span) (he : e ∈ collapse ss) :
    ∃ before after, ss = before ++ e :: after ∧ ∀ e' ∈ after, e'.span ≠ e.span := by
  fun_induction collapse ss with
  | case1 => exact absurd he List.not_mem_nil
  | case2 s =>
    obtain rfl := List.mem_singleton.1 he
    exact ⟨[], [], rfl, fun _ he' => absurd he' List.not_mem_nil⟩
  | case3 s s' rest _ ih =>
    obtain ⟨before, after, hsplit, hafter⟩ := ih (List.pairwise_cons.1 h).2 he
    exact ⟨s :: before, after, by rw [hsplit, List.cons_append], hafter⟩
  | case4 s s' rest hne ih =>
    rcases List.mem_cons.1 he with rfl | he
    · exact ⟨[], s' :: rest, rfl, fun e' he' => (span_lt_of_pairwise h hne he').ne'⟩
    · obtain ⟨before, after, hsplit, hafter⟩ := ih (List.pairwise_cons.1 h).2 he
      exact ⟨s :: before, after, by rw [hsplit, List.cons_append], hafter⟩

end Collapse

/-- A node as a scope. -/
def scopeOf {ν : Type} (t : Tree ν) (n : ν) : Scope := ⟨t.tag n, t.span n⟩

theorem scopes_eq_collapse {ν : Type} [DecidableEq ν] {t : Tree ν} {n : ν} {l : List ν}
    (h : t.Lineage n l) (hlen : l.length ≤ t.nodeCount + 1) :
    t.scopes n = .ok (collapse (l.dropLast.map t.scopeOf)) := by
  unfold scopes
  rw [scopesFrom_eq_ok h hlen, ← List.reverse_reverse (collapse _), ← foldl_enclose_eq,
    List.foldl_map]
  rfl

variable {t : Tree Nat} {pos : Position} {n : Nat} {l : List Nat}

theorem mem_dropLast_lineage_iff (h : t.Numbered) (hs : t.Nested) (hn : t.Innermost pos n)
    (hl : t.Lineage n l) {m : Nat} :
    m ∈ l.dropLast ↔ m < t.nodeCount ∧ m ≠ t.root ∧ pos ∈ t.span m := by
  constructor
  · intro hm
    have hmem : m ∈ l := List.mem_of_mem_dropLast hm
    have ha := (hl.mem_iff_above h.parent_root').1 hmem
    refine ⟨(h.le_of_above ha).trans_lt hn.lt_nodeCount, hl.ne_root_of_mem_dropLast hm,
      hs.mem_of_above ha (hn.mem_of_ne_root ?_)⟩
    -- The lineage of the root is the root alone.
    rintro rfl
    rw [Lineage.root_iff.1 hl] at hm
    exact absurd hm List.not_mem_nil
  · rintro ⟨hlt, hne, hmem⟩
    have hml := (hl.mem_iff_above h.parent_root').2 (hn.above m hlt hmem)
    rw [← hl.dropLast_concat] at hml
    rcases List.mem_append.1 hml with hm | hm
    · exact hm
    · exact absurd (List.mem_singleton.1 hm) hne

theorem pairwise_scopes (h : t.Numbered) (hs : t.Nested) (hl : t.Lineage n l) :
    (l.dropLast.map t.scopeOf).Pairwise fun inner outer => inner.span ≤ outer.span := by
  refine List.pairwise_map.2 ?_
  have := (hl.pairwise h.parent_root').sublist (List.dropLast_sublist l)
  exact this.imp fun hab => hs.span_le_of_above hab.1

/-- The spans of the scopes are those of the nodes that hold the position, the root left out. -/
theorem mem_spans_iff (h : t.Numbered) (hs : t.Nested) (hn : t.Innermost pos n)
    (hl : t.Lineage n l) (span : Span) :
    span ∈ (collapse (l.dropLast.map t.scopeOf)).map (·.span)
      ↔ ∃ m < t.nodeCount, m ≠ t.root ∧ t.span m = span ∧ pos ∈ span := by
  constructor
  · intro hspan
    obtain ⟨e, he, rfl⟩ := List.mem_map.1 hspan
    obtain ⟨m, hm, rfl⟩ := List.mem_map.1 (mem_of_mem_collapse he)
    obtain ⟨hlt, hne, hmem⟩ := (mem_dropLast_lineage_iff h hs hn hl).1 hm
    exact ⟨m, hlt, hne, rfl, hmem⟩
  · rintro ⟨m, hlt, hne, rfl, hmem⟩
    have hm := (mem_dropLast_lineage_iff h hs hn hl).2 ⟨hlt, hne, hmem⟩
    obtain ⟨e, he, hspan⟩ := exists_mem_collapse (List.mem_map_of_mem (f := t.scopeOf) hm)
    exact List.mem_map.2 ⟨e, he, hspan⟩

/-- A scope is the outermost of the nodes with its span. -/
theorem outermost_of_mem_scopes (h : t.Numbered) (hs : t.Nested) (hn : t.Innermost pos n)
    (hl : t.Lineage n l) {e : Scope} (he : e ∈ collapse (l.dropLast.map t.scopeOf)) :
    ∃ m < t.nodeCount, m ≠ t.root ∧ t.span m = e.span ∧ t.tag m = e.tag
      ∧ ∀ k < t.nodeCount, k ≠ t.root → t.span k = e.span →
        k = m ∨ t.Above m k ∧ t.Shallower m k := by
  obtain ⟨before, after, hsplit, hafter⟩ := split_of_mem_collapse (pairwise_scopes h hs hl) he
  obtain ⟨lower, rest, hlist, -, hrest⟩ := List.map_eq_append_iff.1 hsplit
  obtain ⟨m, upper, rfl, rfl, rfl⟩ := List.map_eq_cons_iff.1 hrest
  have hmem : ∀ k, k ∈ l.dropLast ↔ _ := fun k => mem_dropLast_lineage_iff h hs hn hl
  obtain ⟨hlt, hne, hpos⟩ := (hmem m).1 (by rw [hlist]; simp)
  refine ⟨m, hlt, hne, rfl, rfl, fun k hk hkne hspan => ?_⟩
  have hkpos : pos ∈ t.span k := by
    rw [hspan]
    exact hpos
  have hkl := (hmem k).2 ⟨hk, hkne, hkpos⟩
  rw [hlist, List.mem_append, List.mem_cons] at hkl
  rcases hkl with hkl | hkl | hkl
  · right
    have hpair := (hl.pairwise h.parent_root').sublist (List.dropLast_sublist l)
    rw [hlist, List.pairwise_append] at hpair
    exact hpair.2.2 k hkl m List.mem_cons_self
  · exact Or.inl hkl
  · exact absurd hspan (hafter _ (List.mem_map_of_mem hkl))

end SyntaxQuery.Tree
