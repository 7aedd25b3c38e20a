import Mathlib.Data.List.SplitBy
import SyntaxQuery.Proofs.Tree.Scopes
import SyntaxQuery.Proofs.Walk
import SyntaxQuery.Tree.Drawn

/-!
# Climbing in any tree

Nothing is asked of the links here: they may run in circles, end below the root or lead past the
number of nodes that the tree reports. The walk over the scopes and the walk over the ancestors
stop at the same node for the same reason (`climb_scopesFrom`), so the scopes are the ancestors
without the root, each run of equal spans cut down to its last (`scopes_follow_ancestors`).

In a tree whose links stay among as many nodes as it reports, the bound on the steps is met by
circles only: a way that ends meets no node twice, so it is over before the bound
(`ancestors_exact`).
-/

namespace SyntaxQuery.Tree

open StateTransition (Reaches)

section Runs

/-- A first element that is related to the second joins the first run. -/
theorem splitBy_cons_of_rel {α : Type} {r : α → α → Bool} {a b : α} {l : List α} (h : r a b) :
    ∃ run runs, (b :: l).splitBy r = (b :: run) :: runs
      ∧ (a :: b :: l).splitBy r = (a :: b :: run) :: runs := by
  rcases hruns : (b :: l).splitBy r with _ | ⟨_ | ⟨c, run⟩, runs⟩
  · simp at hruns
  · have := List.nil_notMem_splitBy r (b :: l)
    simp [hruns] at this
  · obtain ⟨hflat, hnil, hchain, hends⟩ := List.splitBy_eq_iff.1 hruns
    simp only [List.flatten_cons, List.cons_append, List.cons.injEq] at hflat
    obtain ⟨rfl, hflat⟩ := hflat
    refine ⟨run, runs, rfl, List.splitBy_eq_iff.2 ⟨by simp [hflat], ?_, ?_, ?_⟩⟩
    · simpa using hnil
    · intro m hm
      rcases List.mem_cons.1 hm with rfl | hm
      · exact List.isChain_cons_cons.2 ⟨h, hchain _ List.mem_cons_self⟩
      · exact hchain m (List.mem_cons_of_mem _ hm)
    · rw [List.isChain_cons] at hends ⊢
      refine ⟨fun m hm => ?_, hends.2⟩
      obtain ⟨_, hb, hne⟩ := hends.1 m hm
      exact ⟨List.cons_ne_nil a _, hb, by simpa using hne⟩

theorem collapse_eq_splitBy (ss : List Scope) :
    collapse ss = (ss.splitBy fun s s' => s.span = s'.span).filterMap List.getLast? := by
  fun_induction collapse ss with
  | case1 => rfl
  | case2 s => rfl
  | case3 s s' rest hspan ih =>
    obtain ⟨run, runs, htail, hall⟩ :=
      splitBy_cons_of_rel (r := fun s s' : Scope => s.span = s'.span) (l := rest)
        (decide_eq_true hspan)
    rw [ih, htail, hall, List.filterMap_cons, List.filterMap_cons, List.getLast?_cons_cons]
  | case4 s s' rest hspan ih =>
    have hsplit := List.splitBy_append_cons (r := fun s s' : Scope => s.span = s'.span)
      (l := [s]) (a := s') rest (by simpa using hspan)
    rw [List.singleton_append] at hsplit
    rw [hsplit, ih]
    rfl

theorem span_of_mem_head?_collapse {s : Scope} {rest : List Scope} :
    ∀ e ∈ (collapse (s :: rest)).head?, e.span = s.span := by
  induction rest generalizing s with
  | nil => simp [collapse]
  | cons s' rest ih =>
    intro e he
    unfold collapse at he
    split_ifs at he with hspan
    · rw [hspan]
      exact ih e he
    · simp only [List.head?_cons, Option.mem_def, Option.some.injEq] at he
      rw [he]

theorem isChain_collapse (ss : List Scope) :
    (collapse ss).IsChain fun inner outer => inner.span ≠ outer.span := by
  fun_induction collapse ss with
  | case1 => simp
  | case2 s => simp
  | case3 s s' rest _ ih => exact ih
  | case4 s s' rest hspan ih =>
    refine List.isChain_cons.2 ⟨fun e he => ?_, ih⟩
    rw [span_of_mem_head?_collapse e he]
    exact hspan

theorem length_collapse_le (ss : List Scope) : (collapse ss).length ≤ ss.length := by
  fun_induction collapse ss with
  | case1 => simp
  | case2 s => simp
  | case3 s s' rest _ ih =>
    simp only [List.length_cons] at ih ⊢
    omega
  | case4 s s' rest _ ih =>
    simp only [List.length_cons] at ih ⊢
    omega

end Runs

variable {ν : Type} [DecidableEq ν] {t : Tree ν}

section Steps

variable {anchor n p : ν} {steps : Nat}

theorem climb_zero (hn : n ≠ t.root) : t.climb anchor 0 n = .error (.parentCycle anchor) := by
  unfold climb
  simp [hn]

theorem climb_parent_none (hn : n ≠ t.root) (hp : t.parent n = none) :
    t.climb anchor (steps + 1) n = .error (.orphan n) := by
  unfold climb
  simp [hn, hp]

theorem climb_parent_some (hn : n ≠ t.root) (hp : t.parent n = some p) :
    t.climb anchor (steps + 1) n = (t.climb anchor steps p).map (n :: ·) := by
  conv_lhs => unfold climb
  simp [hn, hp]

end Steps

/-- The walk over the ancestors and the walk over the scopes both come to the root, or both stop
at one place for one reason. -/
theorem climb_scopesFrom (anchor : ν) : ∀ (steps : Nat) (n : ν) (inner : List Scope),
    (∃ l, t.Lineage n l ∧ l.length ≤ steps + 1)
      ∨ (t.climb anchor steps n = .error (.parentCycle anchor)
        ∧ t.scopesFrom anchor steps n inner = .error (.parentCycle anchor))
      ∨ ∃ x, t.climb anchor steps n = .error (.orphan x)
        ∧ t.scopesFrom anchor steps n inner = .error (.cutOff x)
  | steps, n, inner => by
    by_cases hn : n = t.root
    · subst hn
      exact Or.inl ⟨[t.root], .root, by simp⟩
    · cases steps with
      | zero =>
        refine Or.inr (Or.inl ⟨climb_zero hn, ?_⟩)
        unfold scopesFrom
        simp [hn]
      | succ steps =>
        unfold scopesFrom
        simp only [if_neg hn]
        rcases hp : t.parent n with _ | p
        · exact Or.inr (Or.inr ⟨n, climb_parent_none hn hp, rfl⟩)
        · rw [climb_parent_some hn hp]
          rcases climb_scopesFrom anchor steps p (enclose ⟨t.tag n, t.span n⟩ inner) with
            ⟨l, hl, hlen⟩ | ⟨hc, hs⟩ | ⟨x, hc, hs⟩
          · exact Or.inl ⟨n :: l, .child hn hp hl, by simp only [List.length_cons]; omega⟩
          · exact Or.inr (Or.inl ⟨by rw [hc]; rfl, hs⟩)
          · exact Or.inr (Or.inr ⟨x, by rw [hc]; rfl, hs⟩)

theorem scopes_follow_ancestors (t : Tree ν) (anchor : ν) :
    (∃ below scopes, t.ancestors anchor = .ok (below ++ [t.root]) ∧ t.scopes anchor = .ok scopes
        ∧ scopes = ((below.map t.scopeOf).splitBy fun s s' => s.span = s'.span).filterMap
            List.getLast?
        ∧ (scopes.IsChain fun inner outer => inner.span ≠ outer.span)
        ∧ t.root ∉ below ∧ scopes.length ≤ below.length)
      ∨ (t.ancestors anchor = .error (.parentCycle anchor)
        ∧ t.scopes anchor = .error (.parentCycle anchor))
      ∨ ∃ x, t.ancestors anchor = .error (.orphan x) ∧ t.scopes anchor = .error (.cutOff x) := by
  rcases climb_scopesFrom (t := t) anchor t.nodeCount anchor [] with
    ⟨l, hl, hlen⟩ | ⟨hc, hs⟩ | ⟨x, hc, hs⟩
  · refine Or.inl ⟨l.dropLast, _, ?_, scopes_eq_collapse hl hlen, collapse_eq_splitBy _,
      isChain_collapse _, fun hroot => hl.ne_root_of_mem_dropLast hroot rfl, ?_⟩
    · rw [hl.dropLast_concat]
      exact ancestors_eq_ok_iff.2 ⟨hl, hlen⟩
    · exact (length_collapse_le _).trans_eq (by simp)
  · exact Or.inr (Or.inl ⟨hc, by rw [scopes, hs]; rfl⟩)
  · exact Or.inr (Or.inr ⟨x, hc, by rw [scopes, hs]; rfl⟩)

/-- The next node on the way up, which ends at the root. -/
def up (t : Tree ν) (n : ν) : Option ν :=
  if n = t.root then none else t.parent n

section Up

variable {anchor n p x : ν} {l : List ν}

theorem up_eq_some_iff : t.up n = some p ↔ n ≠ t.root ∧ t.parent n = some p := by
  unfold up
  split_ifs with hn <;> simp [hn]

theorem up_eq_none_iff : t.up n = none ↔ n = t.root ∨ t.parent n = none := by
  unfold up
  split_ifs with hn <;> simp [hn]

theorem lineage_iff_leads :
    t.Lineage n l ↔ ∃ below, l = below ++ [t.root] ∧ Leads t.up n below t.root := by
  constructor
  · intro h
    induction h with
    | root => exact ⟨[], rfl, .here _⟩
    | child hn hp _ ih =>
      obtain ⟨below, rfl, hleads⟩ := ih
      exact ⟨_ :: below, rfl, .step (up_eq_some_iff.2 ⟨hn, hp⟩) hleads⟩
  · rintro ⟨below, rfl, h⟩
    generalize hx : t.root = x at h
    induction h with
    | here n =>
      subst hx
      exact .root
    | step hp _ ih =>
      obtain ⟨hn, hp⟩ := up_eq_some_iff.1 hp
      exact .child hn hp (ih hx)

theorem Lineage.nodup (h : t.Lineage n l) : l.Nodup := by
  obtain ⟨below, rfl, hleads⟩ := lineage_iff_leads.1 h
  exact hleads.nodup (up_eq_none_iff.2 (Or.inl rfl))

omit [DecidableEq ν] in
theorem Lineage.isChain_parent (h : t.Lineage n l) :
    l.IsChain fun a b => t.parent a = some b := by
  induction h with
  | root => simp
  | child _ hp h ih =>
    refine List.isChain_cons.2 ⟨fun m hm => ?_, ih⟩
    rw [h.head?_eq, Option.mem_some_iff] at hm
    rw [← hm]
    exact hp

theorem climb_of_orphan (h : Leads t.up n l x) (hx : x ≠ t.root) (hp : t.parent x = none)
    {steps : Nat} (hlen : l.length < steps) : t.climb anchor steps n = .error (.orphan x) := by
  induction h generalizing steps with
  | here n =>
    obtain ⟨steps, rfl⟩ : ∃ k, steps = k + 1 := ⟨steps - 1, by simp at hlen; omega⟩
    exact climb_parent_none hx hp
  | step hm _ ih =>
    simp only [List.length_cons] at hlen
    obtain ⟨steps, rfl⟩ : ∃ k, steps = k + 1 := ⟨steps - 1, by omega⟩
    obtain ⟨hn, hm⟩ := up_eq_some_iff.1 hm
    rw [climb_parent_some hn hm, ih hx hp (by omega)]
    rfl

theorem climb_of_forever : ∀ {steps : Nat} {n : ν}, Forever t.up n →
    t.climb anchor steps n = .error (.parentCycle anchor)
  | steps, n, h => by
    obtain ⟨m, hm, h⟩ := h.exists_next
    obtain ⟨hn, hm⟩ := up_eq_some_iff.1 hm
    cases steps with
    | zero => exact climb_zero hn
    | succ steps =>
      rw [climb_parent_some hn hm, climb_of_forever h]
      rfl

end Up

section Bounded

variable {nodes : Finset ν} {n : ν}

theorem exists_ancestors_of_reaches (hcount : nodes.card ≤ t.nodeCount)
    (hup : ∀ m ∈ nodes, ∀ p, t.up m = some p → p ∈ nodes) (hn : n ∈ nodes)
    (h : Reaches t.up n t.root) : ∃ l, t.ancestors n = .ok l := by
  obtain ⟨below, hleads⟩ := reaches_iff_leads.1 h
  have hlen := hleads.length_lt_card hup hn (up_eq_none_iff.2 (Or.inl rfl))
  refine ⟨below ++ [t.root], ancestors_eq_ok_iff.2 ⟨lineage_iff_leads.2 ⟨below, rfl, hleads⟩, ?_⟩⟩
  simp only [List.length_append, List.length_singleton]
  omega

theorem ancestors_of_orphan (hcount : nodes.card ≤ t.nodeCount)
    (hup : ∀ m ∈ nodes, ∀ p, t.up m = some p → p ∈ nodes) (hn : n ∈ nodes) {x : ν}
    (h : Reaches t.up n x) (hx : x ≠ t.root) (hp : t.parent x = none) :
    t.ancestors n = .error (.orphan x) := by
  obtain ⟨l, hleads⟩ := reaches_iff_leads.1 h
  have hlen := hleads.length_lt_card hup hn (up_eq_none_iff.2 (Or.inr hp))
  exact climb_of_orphan hleads hx hp (by omega)

theorem ancestors_exact (t : Tree ν) (nodes : Finset ν) (hcount : nodes.card ≤ t.nodeCount)
    (hlinks : ∀ m ∈ nodes, ∀ p, t.parent m = some p → p ∈ nodes) (n : ν) (hn : n ∈ nodes) :
    ((∃ l, t.ancestors n = .ok l) ↔ Reaches t.up n t.root)
      ∧ (∀ l, t.ancestors n = .ok l → l.head? = some n ∧ l.getLast? = some t.root ∧ l.Nodup
          ∧ l.IsChain fun a b => t.parent a = some b)
      ∧ (∀ x, t.ancestors n = .error (.orphan x)
          ↔ Reaches t.up n x ∧ x ≠ t.root ∧ t.parent x = none)
      ∧ ∀ a, t.ancestors n = .error (.parentCycle a) ↔ a = n ∧ Forever t.up n := by
  have hup : ∀ m ∈ nodes, ∀ p, t.up m = some p → p ∈ nodes := fun m hm p hp =>
    hlinks m hm p (up_eq_some_iff.1 hp).2
  have hroot : Reaches t.up n t.root → ∃ l, t.ancestors n = .ok l :=
    exists_ancestors_of_reaches hcount hup hn
  have horphan : ∀ x, Reaches t.up n x → x ≠ t.root → t.parent x = none →
      t.ancestors n = .error (.orphan x) := fun _ => ancestors_of_orphan hcount hup hn
  have hforever : Forever t.up n → t.ancestors n = .error (.parentCycle n) := climb_of_forever
  -- The three ways to go exclude each other by what `ancestors` answers, and there is no fourth.
  have hways : Reaches t.up n t.root ∨ (∃ x, Reaches t.up n x ∧ x ≠ t.root ∧ t.parent x = none)
      ∨ Forever t.up n := by
    rcases ends_or_forever t.up n with ⟨x, hx, hend⟩ | h
    · by_cases hxr : x = t.root
      · exact Or.inl (hxr ▸ hx)
      · exact Or.inr (Or.inl ⟨x, hx, hxr, (up_eq_none_iff.1 hend).resolve_left hxr⟩)
    · exact Or.inr (Or.inr h)
  refine ⟨⟨?_, hroot⟩, ?_, fun x => ⟨fun hx => ?_, fun h => horphan x h.1 h.2.1 h.2.2⟩,
    fun a => ⟨fun ha => ?_, ?_⟩⟩
  · rintro ⟨l, hl⟩
    obtain ⟨below, -, hleads⟩ := lineage_iff_leads.1 (ancestors_eq_ok_iff.1 hl).1
    exact reaches_iff_leads.2 ⟨below, hleads⟩
  · intro l hl
    have hline := (ancestors_eq_ok_iff.1 hl).1
    exact ⟨hline.head?_eq, hline.getLast?_eq, hline.nodup, hline.isChain_parent⟩
  · rcases hways with h | ⟨y, hy, hyr, hp⟩ | h
    · obtain ⟨l, hl⟩ := hroot h
      simp [hl] at hx
    · rw [horphan y hy hyr hp, Except.error.injEq, Malformed.orphan.injEq] at hx
      subst hx
      exact ⟨hy, hyr, hp⟩
    · simp [hforever h] at hx
  · rcases hways with h | ⟨y, hy, hyr, hp⟩ | h
    · obtain ⟨l, hl⟩ := hroot h
      simp [hl] at ha
    · simp [horphan y hy hyr hp] at ha
    · rw [hforever h, Except.error.injEq, Malformed.parentCycle.injEq] at ha
      exact ⟨ha.symm, h⟩
  · rintro ⟨rfl, h⟩
    exact hforever h

/-- A root with a child, a circle of two nodes, and a child of an orphan. -/
def tangled : Listed where
  root := 0
  nodes := ⟨[none, some 0, some 3, some 2, none, some 4].map fun parent =>
    { tag := "node", span := ⟨⟨1, 1⟩, ⟨1, 1⟩⟩, parent := parent, children := [], items := none }⟩

theorem ancestors_tangled :
    Reaches tangled.tree.up 1 0 ∧ Reaches tangled.tree.up 5 4 ∧ Forever tangled.tree.up 2 := by
  have h := ancestors_exact tangled.tree (Finset.range 6) (by decide) (by decide)
  refine ⟨(h 1 (by decide)).1.1 ⟨[1, 0], by decide⟩, ?_, ?_⟩
  · exact (((h 5 (by decide)).2.2.1 4).1 (by decide)).1
  · exact (((h 2 (by decide)).2.2.2 2).1 (by decide)).2

end Bounded

end SyntaxQuery.Tree
