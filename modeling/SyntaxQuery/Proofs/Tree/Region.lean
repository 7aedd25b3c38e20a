import Mathlib.Data.List.Nodup
import SyntaxQuery.Proofs.Tree.Nested

/-!
# The meaning of a selection

A selection between two positions means the deepest node whose span holds both, or the root when
there is none. When that node is a container and both positions lie in children of it, it means the
run of children between them instead (`Selects`). Every selection has one meaning
(`Selects.unique`), and `regionAt` finds it in every numbered tree with nested spans
(`regionAt_selects`): two walks down from the root part just below the deepest node that both pass
(`exists_meet`).
-/

namespace SyntaxQuery.Tree

/-- The deepest node with a property, or the root when no node has it. -/
structure Deepest (t : Tree Nat) (P : Nat → Prop) (n : Nat) : Prop where
  lt_nodeCount : n < t.nodeCount
  holds : P n ∨ n = t.root ∧ ∀ m < t.nodeCount, ¬ P m
  deeper : ∀ m < t.nodeCount, P m → m ≠ n → t.Shallower m n

/-- The span of the node holds both positions. -/
def Spans (t : Tree Nat) (start stop : Position) (n : Nat) : Prop :=
  start ∈ t.span n ∧ stop ∈ t.span n

/-- The node is a container, and each of the positions lies in one of its children. -/
def Divides (t : Tree Nat) (start stop : Position) (n : Nat) : Prop :=
  (t.items n).isSome ∧ (∃ c ∈ t.children n, start ∈ t.span c) ∧ ∃ c ∈ t.children n, stop ∈ t.span c

/-- `run` is the part of `nodes` from the one that holds `p` to the one that holds `q`. -/
def IsRun (t : Tree Nat) (nodes run : List Nat) (p q : Position) : Prop :=
  ∃ before after first last, nodes = before ++ run ++ after
    ∧ run.head? = some first ∧ p ∈ t.span first ∧ run.getLast? = some last ∧ q ∈ t.span last

/-- `r` is what the selection from `start` to `stop` means. -/
def Selects (t : Tree Nat) (start stop : Position) (r : Region Nat) : Prop :=
  ∃ n, t.Deepest (t.Spans start stop) n
    ∧ (t.Divides start stop n → ∃ run, r = .siblings run
        ∧ t.IsRun (t.children n) run (min start stop) (max start stop))
    ∧ (¬ t.Divides start stop n → r = .node n)

variable {t : Tree Nat} {start stop : Position}

section Symmetry

theorem spans_comm : t.Spans start stop = t.Spans stop start := by
  funext n
  exact propext and_comm

theorem divides_comm {n : Nat} : t.Divides start stop n ↔ t.Divides stop start n := by
  unfold Divides
  rw [and_comm (a := ∃ c ∈ t.children n, start ∈ t.span c)]

theorem Selects.symm {r : Region Nat} (h : t.Selects start stop r) : t.Selects stop start r := by
  obtain ⟨n, hn, hrun, hnode⟩ := h
  refine ⟨n, spans_comm ▸ hn, fun hd => ?_, fun hd => hnode (divides_comm.not.2 hd)⟩
  rw [min_comm, max_comm]
  exact hrun (divides_comm.2 hd)

end Symmetry

section Unique

theorem Deepest.unique {P : Nat → Prop} {m n : Nat} (hm : t.Deepest P m) (hn : t.Deepest P n) :
    m = n := by
  by_contra hne
  rcases hm.holds with hPm | ⟨rfl, hnone⟩
  · rcases hn.holds with hPn | ⟨rfl, hnone⟩
    · obtain ⟨d, e, hd, he, hlt⟩ := hn.deeper m hm.lt_nodeCount hPm hne
      obtain ⟨e', d', he', hd', hlt'⟩ := hm.deeper n hn.lt_nodeCount hPn (Ne.symm hne)
      have := hd.unique hd'
      have := he.unique he'
      omega
    · exact hnone m hm.lt_nodeCount hPm
  · rcases hn.holds with hPn | ⟨rfl, -⟩
    · exact hnone n hn.lt_nodeCount hPn
    · exact hne rfl

/-- An element of a list without repetitions divides it in one way. -/
theorem eq_of_append_cons_eq {a b c d : List Nat} {x : Nat} (hnodup : (a ++ x :: b).Nodup)
    (h : a ++ x :: b = c ++ x :: d) : a = c ∧ b = d := by
  have hnot : x ∉ a ++ b := (List.nodup_cons.1 (List.nodup_middle.1 hnodup)).1
  rw [List.mem_append, not_or] at hnot
  obtain ⟨hac, -, hbd⟩ := (List.append_cons_inj_of_notMem hnot.1 hnot.2).1 h
  exact ⟨hac, hbd⟩

theorem IsRun.unique (h : t.Numbered) (hs : t.Nested) {n : Nat} {run run' : List Nat}
    {p q : Position} (hr : t.IsRun (t.children n) run p q)
    (hr' : t.IsRun (t.children n) run' p q) : run = run' := by
  obtain ⟨before, after, first, last, hsplit, hfirst, hp, hlast, hq⟩ := hr
  obtain ⟨before', after', first', last', hsplit', hfirst', hp', hlast', hq'⟩ := hr'
  have hmem : ∀ x ∈ run, x ∈ t.children n := by
    intro x hx
    rw [hsplit]
    simp [hx]
  have hmem' : ∀ x ∈ run', x ∈ t.children n := by
    intro x hx
    rw [hsplit']
    simp [hx]
  obtain rfl : first = first' := hs.eq_of_mem_children (hmem _ (List.mem_of_mem_head? hfirst))
    (hmem' _ (List.mem_of_mem_head? hfirst')) hp hp'
  obtain rfl : last = last' := hs.eq_of_mem_children (hmem _ (List.mem_of_getLast? hlast))
    (hmem' _ (List.mem_of_getLast? hlast')) hq hq'
  have hnodup := h.nodup_children n
  -- Both runs begin at the same place of the children.
  obtain ⟨r, rfl⟩ := List.head?_eq_some_iff.1 hfirst
  obtain ⟨r', rfl⟩ := List.head?_eq_some_iff.1 hfirst'
  rw [hsplit, List.append_assoc, List.cons_append] at hnodup hsplit'
  rw [List.append_assoc, List.cons_append] at hsplit'
  obtain ⟨-, hrest⟩ := eq_of_append_cons_eq hnodup hsplit'
  -- And they end at the same place.
  have hcons : (first :: r) ++ after = (first :: r') ++ after' := by
    rw [List.cons_append, List.cons_append, hrest]
  obtain ⟨s, hs⟩ := List.getLast?_eq_some_iff.1 hlast
  obtain ⟨s', hs'⟩ := List.getLast?_eq_some_iff.1 hlast'
  have hnodup' : ((first :: r) ++ after).Nodup := (List.nodup_append.1 hnodup).2.1
  rw [hs, List.append_assoc] at hnodup' hcons
  rw [hs', List.append_assoc] at hcons
  obtain ⟨hss, -⟩ := eq_of_append_cons_eq hnodup' hcons
  rw [hs, hs', hss]

theorem Selects.unique (h : t.Numbered) (hs : t.Nested) {r r' : Region Nat}
    (hr : t.Selects start stop r) (hr' : t.Selects start stop r') : r = r' := by
  obtain ⟨n, hn, hrun, hnode⟩ := hr
  obtain ⟨m, hm, hrun', hnode'⟩ := hr'
  obtain rfl := hn.unique hm
  by_cases hd : t.Divides start stop n
  · obtain ⟨run, hr, hrun⟩ := hrun hd
    obtain ⟨run', hr', hrun'⟩ := hrun' hd
    rw [hr, hr', hrun.unique h hs hrun']
  · rw [hnode hd, hnode' hd]

end Unique

section Meet

/-- What begins two walks begins the part that they share, unless one of them ends there. -/
theorem prefix_shared {w shared xs ys : List Nat} (hx : w <+: shared ++ xs)
    (hy : w <+: shared ++ ys)
    (hpart : (xs = [] ∨ ys = []) ∨ ∃ x xs' y ys', xs = x :: xs' ∧ ys = y :: ys' ∧ x ≠ y) :
    w <+: shared := by
  rcases List.prefix_or_prefix_of_prefix hx (List.prefix_append shared xs) with h | ⟨r, rfl⟩
  · exact h
  · rw [List.prefix_append_right_inj] at hx hy
    have hr : r = [] := by
      rcases hpart with (rfl | rfl) | ⟨x, xs', y, ys', rfl, rfl, hne⟩
      · exact List.prefix_nil.1 hx
      · exact List.prefix_nil.1 hy
      · cases r with
        | nil => rfl
        | cons z r =>
          obtain ⟨rfl, -⟩ := List.cons_prefix_cons.1 hx
          obtain ⟨rfl, -⟩ := List.cons_prefix_cons.1 hy
          exact absurd rfl hne
    simp [hr]

variable {a b : Nat} {la lb : List Nat}

/-- A node on the lineages of both innermost nodes holds both positions, or is the root when no
node does. -/
theorem spans_or_root (h : t.Numbered) (hs : t.Nested) (ha : t.Innermost start a)
    (hb : t.Innermost stop b) {n : Nat} (hna : t.Above n a) (hnb : t.Above n b) :
    t.Spans start stop n ∨ n = t.root ∧ ∀ m < t.nodeCount, ¬ t.Spans start stop m := by
  by_cases hmem : start ∈ t.span a ∧ stop ∈ t.span b
  · exact Or.inl ⟨hs.mem_of_above hna hmem.1, hs.mem_of_above hnb hmem.2⟩
  · right
    rw [not_and_or] at hmem
    rcases hmem with hmem | hmem
    · obtain rfl := ha.mem_or_root.resolve_left hmem
      refine ⟨h.eq_root_of_above hna, fun m hm hspans => hmem ?_⟩
      rw [← h.eq_root_of_above (ha.above m hm hspans.1)]
      exact hspans.1
    · obtain rfl := hb.mem_or_root.resolve_left hmem
      refine ⟨h.eq_root_of_above hnb, fun m hm hspans => hmem ?_⟩
      rw [← h.eq_root_of_above (hb.above m hm hspans.2)]
      exact hspans.2

/-- A child on the way from a node down to the innermost node of a position holds the position. -/
theorem mem_of_child_above (h : t.Numbered) (hs : t.Nested) {pos : Position} {n c p : Nat}
    (hn : t.Innermost pos n) (hc : t.Above c n) (hp : t.parent c = some p) : pos ∈ t.span c := by
  refine hs.mem_of_above hc (hn.mem_or_root.resolve_right ?_)
  rintro rfl
  rw [h.eq_root_of_above hc, h.parent_root'] at hp
  simp at hp

/-- A walk down from the root, cut after the node `n`, as the lineage that it is backwards. -/
theorem eq_of_reverse_eq {α : Type} {la shared xs : List α} {n : α}
    (h : la.reverse = shared ++ [n] ++ xs) : la = xs.reverse ++ n :: shared.reverse := by
  have := congrArg List.reverse h
  simpa using this

/-- The last node that two walks down to innermost nodes share is the deepest that holds both
positions. -/
theorem deepest_of_shared (h : t.Numbered) (hs : t.Nested) (ha : t.Innermost start a)
    (hb : t.Innermost stop b) (hla : t.Lineage a la) (hlb : t.Lineage b lb)
    {shared xs ys : List Nat} {n : Nat} (hxs : la.reverse = shared ++ [n] ++ xs)
    (hys : lb.reverse = shared ++ [n] ++ ys)
    (hpart : (xs = [] ∨ ys = []) ∨ ∃ x xs' y ys', xs = x :: xs' ∧ ys = y :: ys' ∧ x ≠ y) :
    t.Deepest (t.Spans start stop) n := by
  have hna : t.Above n a := by
    rw [← hla.mem_iff_above h.parent_root', eq_of_reverse_eq hxs]
    simp
  have hnb : t.Above n b := by
    rw [← hlb.mem_iff_above h.parent_root', eq_of_reverse_eq hys]
    simp
  have hn : t.Lineage n (n :: shared.reverse) := by
    rw [eq_of_reverse_eq hxs] at hla
    exact hla.of_append
  refine ⟨(h.le_of_above hna).trans_lt ha.lt_nodeCount, spans_or_root h hs ha hb hna hnb, ?_⟩
  intro m hm hspans hne
  obtain ⟨lm, hlm, hsuffix⟩ := hla.suffix_of_mem
    ((hla.mem_iff_above h.parent_root').2 (ha.above m hm hspans.1))
  obtain ⟨lm', hlm', hsuffix'⟩ := hlb.suffix_of_mem
    ((hlb.mem_iff_above h.parent_root').2 (hb.above m hm hspans.2))
  obtain rfl := hlm.unique hlm'
  have hpre : lm.reverse <+: shared ++ [n] := by
    refine prefix_shared ?_ ?_ hpart
    · rw [← hxs]
      exact List.reverse_prefix.2 hsuffix
    · rw [← hys]
      exact List.reverse_prefix.2 hsuffix'
  have hlen : lm.length < (n :: shared.reverse).length := by
    have hle := hpre.length_le
    simp only [List.length_reverse, List.length_append, List.length_singleton] at hle
    rw [List.length_cons, List.length_reverse]
    refine lt_of_le_of_ne hle fun heq => hne ?_
    -- A walk as long as the one to `n` would be that walk.
    have hsame : lm.reverse = shared ++ [n] := hpre.eq_of_length (by simpa using heq)
    have hlast := congrArg List.getLast? hsame
    rw [List.getLast?_reverse, hlm.head?_eq, List.getLast?_append] at hlast
    simpa using hlast
  exact hlm.shallower hn hlen

/-- Two walks down to innermost nodes part below the deepest node that holds both positions. Where
one of the walks ends there, its position lies in no child of that node. -/
theorem exists_meet (h : t.Numbered) (hs : t.Nested) (ha : t.Innermost start a)
    (hb : t.Innermost stop b) (hla : t.Lineage a la) (hlb : t.Lineage b lb) :
    ∃ n, t.Deepest (t.Spans start stop) n ∧
      (fork t.root la.reverse lb.reverse = (n, none) ∧ ¬ t.Divides start stop n
      ∨ ∃ x y, fork t.root la.reverse lb.reverse = (n, some (x, y)) ∧ x ≠ y
          ∧ x ∈ t.children n ∧ start ∈ t.span x ∧ y ∈ t.children n ∧ stop ∈ t.span y) := by
  obtain ⟨shared, xs, ys, hxs, hys, hcase⟩ := fork_spec t.root la.reverse lb.reverse
  have hpart : (xs = [] ∨ ys = []) ∨ ∃ x xs' y ys', xs = x :: xs' ∧ ys = y :: ys' ∧ x ≠ y := by
    rcases hcase with ⟨hnil, -⟩ | ⟨x, xs', y, ys', hx, hy, hne, -⟩
    · exact Or.inl hnil
    · exact Or.inr ⟨x, xs', y, ys', hx, hy, hne⟩
  -- Both walks begin with the root, so they share at least that.
  have hroot : [t.root] <+: shared := by
    refine prefix_shared ?_ ?_ hpart
    · rw [← hxs, List.singleton_prefix_iff_head?_eq_some, List.head?_reverse, hla.getLast?_eq]
    · rw [← hys, List.singleton_prefix_iff_head?_eq_some, List.head?_reverse, hlb.getLast?_eq]
  rcases List.eq_nil_or_concat' shared with rfl | ⟨shared, n, rfl⟩
  · simp at hroot
  refine ⟨n, deepest_of_shared h hs ha hb hla hlb hxs hys hpart, ?_⟩
  rw [List.getLast?_concat, Option.getD_some] at hcase
  rw [eq_of_reverse_eq hxs] at hla
  rw [eq_of_reverse_eq hys] at hlb
  rcases hcase with ⟨hnil, hfork⟩ | ⟨x, xs, y, ys, rfl, rfl, hne, hfork⟩
  · refine Or.inl ⟨hfork, fun ⟨_, ⟨c, hc, hcs⟩, d, hd, hds⟩ => ?_⟩
    rcases hnil with rfl | rfl
    · obtain rfl := hla.eq_head
      exact ha.not_mem_children h hc hcs
    · obtain rfl := hlb.eq_head
      exact hb.not_mem_children h hd hds
  · rw [List.reverse_cons, List.append_assoc, List.singleton_append] at hla hlb
    have hx := hla.parent_of_append
    have hy := hlb.parent_of_append
    have hxa : t.Above x a := (hla.mem_iff_above h.parent_root').1 (by simp)
    have hyb : t.Above y b := (hlb.mem_iff_above h.parent_root').1 (by simp)
    exact Or.inr ⟨x, y, hfork, hne, h.mem_children.2 hx, mem_of_child_above h hs ha hxa hx,
      h.mem_children.2 hy, mem_of_child_above h hs hb hyb hy⟩

end Meet

section Narrow

theorem narrow_comm {ν : Type} [DecidableEq ν] (t : Tree ν) (n a b : ν) :
    t.narrow n a b = t.narrow n b a := by
  unfold narrow
  cases t.items n with
  | none => rfl
  | some items =>
    cases t.indexOf n a with
    | none => cases t.indexOf n b <;> rfl
    | some i =>
      cases t.indexOf n b with
      | none => rfl
      | some j => simp only [Nat.min_comm i j, Nat.max_comm i j]

theorem narrow_eq {ν : Type} [DecidableEq ν] {t : Tree ν} {n a b : ν} {items : List ν} {i j : Nat}
    (hitems : t.items n = some items) (hi : t.indexOf n a = some i)
    (hj : t.indexOf n b = some j) :
    t.narrow n a b = if max i j < items.length then
        .ok (.siblings ((items.take (max i j + 1)).drop (min i j)))
      else .error (.indexOutside (t.tag n) (max i j) items.length) := by
  simp only [narrow, hitems, hi, hj]

/-- What is cut out of a list, with what stands before and after it. -/
theorem exists_around_cut {α : Type} {items : List α} {low high : Nat} (hle : low ≤ high)
    (hlt : high < items.length) :
    ∃ before after, items = before ++ (items.take (high + 1)).drop low ++ after
      ∧ before.length = low ∧ ((items.take (high + 1)).drop low).length = high + 1 - low := by
  refine ⟨items.take low, items.drop (high + 1), ?_, ?_, ?_⟩
  · have htake : items.take low = (items.take (high + 1)).take low := by
      rw [List.take_take, min_eq_left (by omega)]
    rw [htake, List.take_append_drop, List.take_append_drop]
  · rw [List.length_take]
    omega
  · rw [List.length_drop, List.length_take]
    omega

theorem findIdx?_append_cons {before after : List Nat} {x : Nat}
    (h : (before ++ x :: after).Nodup) :
    (before ++ x :: after).findIdx? (· = x) = some before.length := by
  have hnot : x ∉ before ++ after := (List.nodup_cons.1 (List.nodup_middle.1 h)).1
  rw [List.findIdx?_append, List.findIdx?_eq_none_iff.2]
  · simp [List.findIdx?_cons]
  · intro c hc
    rw [decide_eq_false_iff_not]
    rintro rfl
    exact hnot (List.mem_append_left after hc)

/-- Of two members of a list, one comes first. -/
theorem exists_between {nodes : List Nat} {x y : Nat} (hx : x ∈ nodes) (hy : y ∈ nodes)
    (hne : x ≠ y) : (∃ before middle after, nodes = before ++ (x :: (middle ++ [y])) ++ after)
      ∨ ∃ before middle after, nodes = before ++ (y :: (middle ++ [x])) ++ after := by
  obtain ⟨before, after, rfl⟩ := List.append_of_mem hx
  rcases List.mem_append.1 hy with hy | hy
  · obtain ⟨before, middle, rfl⟩ := List.append_of_mem hy
    exact Or.inr ⟨before, middle, after, by simp⟩
  · obtain ⟨middle, after, rfl⟩ := List.append_of_mem (List.mem_of_ne_of_mem (Ne.symm hne) hy)
    exact Or.inl ⟨before, middle, after, by simp⟩

/-- Between an item and a later one, `narrow` cuts out the run from the one to the other. -/
theorem narrow_eq_run (h : t.Numbered) {n x y : Nat} {before middle after : List Nat}
    (hitems : (t.items n).isSome)
    (hsplit : t.children n = before ++ (x :: (middle ++ [y])) ++ after) :
    t.narrow n x y = .ok (.siblings (x :: (middle ++ [y]))) := by
  obtain ⟨items, his⟩ := Option.isSome_iff_exists.1 hitems
  have hchildren := h.items_eq his
  have hnodup := h.nodup_children n
  have hx : t.indexOf n x = some before.length := by
    have hcut : t.children n = before ++ x :: (middle ++ [y] ++ after) := by simp [hsplit]
    rw [h.indexOf_eq, firstIndex, his, Option.bind_some, hchildren, hcut]
    exact findIdx?_append_cons (hcut ▸ hnodup)
  have hy : t.indexOf n y = some (before.length + (middle.length + 1)) := by
    have hcut : t.children n = (before ++ x :: middle) ++ y :: after := by simp [hsplit]
    rw [h.indexOf_eq, firstIndex, his, Option.bind_some, hchildren, hcut,
      findIdx?_append_cons (hcut ▸ hnodup)]
    simp
  rw [narrow_eq his hx hy]
  have hlen : items.length = before.length + (middle.length + 1) + 1 + after.length := by
    rw [hchildren, hsplit]
    simp
    omega
  rw [Nat.min_eq_left (by omega), Nat.max_eq_right (by omega), if_pos (by omega)]
  have hcut : before.length + (middle.length + 1) + 1
      = (before ++ x :: (middle ++ [y])).length := by
    simp
    omega
  rw [hchildren, hsplit, hcut, List.take_left, List.drop_left]

theorem isRun_of_split (hs : t.Nested) {n x y : Nat} {before middle after : List Nat}
    (hsplit : t.children n = before ++ (x :: (middle ++ [y])) ++ after)
    (hx : start ∈ t.span x) (hy : stop ∈ t.span y) :
    t.IsRun (t.children n) (x :: (middle ++ [y])) (min start stop) (max start stop) := by
  have hapart := hs.apart n
  have hbefore : (t.span x).Before (t.span y) := by
    rw [hsplit, List.append_assoc, List.pairwise_append, List.cons_append,
      List.pairwise_cons] at hapart
    exact hapart.2.1.1 y (by simp)
  have hlt := hbefore.lt hx hy
  rw [min_eq_left hlt.le, max_eq_right hlt.le]
  exact ⟨before, after, x, y, hsplit, rfl, hx, by simp [List.getLast?_cons], hy⟩

end Narrow

theorem regionAt_eq_fork {ν : Type} [DecidableEq ν] {t : Tree ν} {a b : ν} {la lb : List ν}
    (ha : t.nodeAt start = .ok a) (hb : t.nodeAt stop = .ok b) (hla : t.ancestors a = .ok la)
    (hlb : t.ancestors b = .ok lb) :
    t.regionAt start stop = match fork t.root la.reverse lb.reverse with
      | (shared, none) => .ok (.node shared)
      | (shared, some (x, y)) => t.narrow shared x y := by
  unfold regionAt
  simp only [ha, hb, bind, Except.bind, pure, Except.pure]
  split_ifs with hab
  · -- A walk and itself part nowhere: the shortcut is what the long way gives too.
    subst hab
    rw [hla, Except.ok.injEq] at hlb
    subst hlb
    rw [fork_self, List.getLast?_reverse, (ancestors_eq_ok_iff.1 hla).1.head?_eq]
    rfl
  · rcases hfork : fork t.root la.reverse lb.reverse with ⟨shared, _ | ⟨x, y⟩⟩ <;>
      simp only [hla, hlb, hfork]

theorem regionAt_selects (h : t.Numbered) (hs : t.Nested) (start stop : Position) :
    ∃ r, t.regionAt start stop = .ok r ∧ t.Selects start stop r := by
  obtain ⟨a, ha, hinner⟩ := nodeAt_innermost h hs start
  obtain ⟨b, hb, hinner'⟩ := nodeAt_innermost h hs stop
  obtain ⟨la, hla, hlin⟩ := h.exists_ancestors hinner.lt_nodeCount
  obtain ⟨lb, hlb, hlin'⟩ := h.exists_ancestors hinner'.lt_nodeCount
  rw [regionAt_eq_fork ha hb hla hlb]
  obtain ⟨n, hn, ⟨hfork, hdiv⟩ | ⟨x, y, hfork, hne, hx, hxs, hy, hys⟩⟩ :=
    exists_meet h hs hinner hinner' hlin hlin'
  · rw [hfork]
    exact ⟨.node n, rfl, n, hn, fun hd => absurd hd hdiv, fun _ => rfl⟩
  · rw [hfork]
    by_cases hitems : (t.items n).isSome
    · have hdiv : t.Divides start stop n := ⟨hitems, ⟨x, hx, hxs⟩, y, hy, hys⟩
      rcases exists_between hx hy hne with ⟨before, middle, after, hsplit⟩ |
        ⟨before, middle, after, hsplit⟩
      · exact ⟨_, narrow_eq_run h hitems hsplit, n, hn,
          fun _ => ⟨_, rfl, isRun_of_split hs hsplit hxs hys⟩, fun hd => absurd hdiv hd⟩
      · have hrun := isRun_of_split hs hsplit hys hxs
        rw [min_comm, max_comm] at hrun
        refine ⟨_, ?_, n, hn, fun _ => ⟨_, rfl, hrun⟩, fun hd => absurd hdiv hd⟩
        dsimp only
        rw [narrow_comm]
        exact narrow_eq_run h hitems hsplit
    · rw [Bool.not_eq_true, Option.isSome_eq_false_iff, Option.isNone_iff_eq_none] at hitems
      refine ⟨.node n, ?_, n, hn, fun hd => ?_, fun _ => rfl⟩
      · simp only [narrow, hitems]
      · have := hd.1
        rw [hitems] at this
        simp at this

/-- A region is one node or a run of siblings. -/
theorem Selects.nodes_eq {r : Region Nat} (hr : t.Selects start stop r) :
    (∃ n < t.nodeCount, r.nodes = [n]) ∨ r.nodes ≠ [] ∧ ∃ n, r.nodes.Sublist (t.children n) := by
  obtain ⟨n, hn, hrun, hnode⟩ := hr
  by_cases hd : t.Divides start stop n
  · obtain ⟨run, rfl, before, after, first, last, hsplit, hfirst, -⟩ := hrun hd
    refine Or.inr ⟨List.ne_nil_of_mem (List.mem_of_mem_head? hfirst), n, ?_⟩
    rw [hsplit, List.append_assoc]
    exact (List.sublist_append_left run after).trans (List.sublist_append_right before _)
  · exact Or.inl ⟨n, hn.lt_nodeCount, by rw [hnode hd, Region.nodes]⟩

/-- A selection that some node holds starts in the first node of its region and ends in the
last. -/
theorem Selects.ends {r : Region Nat} (hr : t.Selects start stop r) (hle : start ≤ stop)
    {m first last : Nat} (hm : m < t.nodeCount) (hspans : t.Spans start stop m)
    (hfirst : r.nodes.head? = some first) (hlast : r.nodes.getLast? = some last) :
    start ∈ t.span first ∧ stop ∈ t.span last := by
  obtain ⟨n, hn, hrun, hnode⟩ := hr
  by_cases hd : t.Divides start stop n
  · obtain ⟨run, rfl, before, after, first', last', -, hfirst', hstart, hlast', hstop⟩ := hrun hd
    obtain rfl : first' = first := Option.some.inj (hfirst'.symm.trans hfirst)
    obtain rfl : last' = last := Option.some.inj (hlast'.symm.trans hlast)
    rw [min_eq_left hle] at hstart
    rw [max_eq_right hle] at hstop
    exact ⟨hstart, hstop⟩
  · obtain rfl := hnode hd
    obtain rfl : n = first := Option.some.inj hfirst
    obtain rfl : n = last := Option.some.inj hlast
    exact hn.holds.resolve_right fun hnone => hnone.2 m hm hspans

end SyntaxQuery.Tree
