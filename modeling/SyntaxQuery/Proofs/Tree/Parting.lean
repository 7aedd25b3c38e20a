import SyntaxQuery.Proofs.Tree.Region
import SyntaxQuery.Tree.Drawn

/-!
# Regions in any tree

Nothing is asked of the tree here: its links may run anywhere, and the places that it reports for
the items of a container may be wrong. A selection still has the same region from either end. A walk
from one of the ends fails, or the ends do not part and the region is one node, or their ways up
come together at a node, from two different nodes below it (`regionAt_cases`, `PartsAt`).

In the last case that node decides alone, by its items and the two places that it reports. If the
larger place is one of its items, the region is the run of its items from the smaller place to the
larger; if not, the tree is malformed (`regionAt_symmetric`).
-/

namespace SyntaxQuery.Tree

variable {ν : Type} [DecidableEq ν] {t : Tree ν} {start stop : Position} {n x y : ν}

/-- The ways up from the nodes at `start` and `stop` come together at `n`, where the one arrives
from `x` and the other from `y`. -/
def PartsAt (t : Tree ν) (start stop : Position) (n x y : ν) : Prop :=
  ∃ a b la lb above, t.nodeAt start = .ok a ∧ t.nodeAt stop = .ok b
    ∧ t.ancestors a = .ok la ∧ t.ancestors b = .ok lb
    ∧ x :: n :: above <:+ la ∧ y :: n :: above <:+ lb ∧ x ≠ y

section Fork

theorem fork_append (above : ν) (shared xs ys : List ν) :
    fork above (shared ++ xs) (shared ++ ys) = fork (shared.getLast?.getD above) xs ys := by
  induction shared generalizing above with
  | nil => rfl
  | cons s shared ih =>
    rw [List.cons_append, List.cons_append, fork, if_pos rfl, ih, List.getLast?_cons,
      Option.getD_some]

theorem fork_comm (above : ν) : ∀ xs ys : List ν,
    fork above ys xs = ((fork above xs ys).1, (fork above xs ys).2.map Prod.swap)
  | [], [] => rfl
  | [], _ :: _ => rfl
  | _ :: _, [] => rfl
  | a :: as, b :: bs => by
    by_cases hab : a = b
    · subst hab
      rw [fork, fork, if_pos rfl, if_pos rfl]
      exact fork_comm a as bs
    · rw [fork, fork, if_neg hab, if_neg (Ne.symm hab)]
      rfl

variable {a b : ν} {la lb : List ν}

omit [DecidableEq ν] in
theorem Lineage.eq_root_of_reverse {xs : List ν} (h : t.Lineage a la) (hxs : la.reverse = x :: xs) :
    x = t.root := by
  have hhead := congrArg List.head? hxs
  rw [List.head?_reverse, h.getLast?_eq, List.head?_cons, Option.some.injEq] at hhead
  exact hhead.symm

/-- Two lineages part, as seen from the root, where their common end begins. -/
theorem Lineage.fork_eq_some_iff (ha : t.Lineage a la) (hb : t.Lineage b lb) :
    fork t.root la.reverse lb.reverse = (n, some (x, y)) ↔
      ∃ above, x :: n :: above <:+ la ∧ y :: n :: above <:+ lb ∧ x ≠ y := by
  constructor
  · intro hfork
    obtain ⟨shared, xs, ys, hxs, hys, hcase⟩ := fork_spec t.root la.reverse lb.reverse
    rcases hcase with ⟨-, hnone⟩ | ⟨x', xs, y', ys, rfl, rfl, hne, hsome⟩
    · simp [hnone] at hfork
    rw [hsome, Prod.mk.injEq, Option.some.injEq, Prod.mk.injEq] at hfork
    obtain ⟨hn, rfl, rfl⟩ := hfork
    rcases List.eq_nil_or_concat' shared with rfl | ⟨above, m, rfl⟩
    · -- Both walks start at the root, so they share at least that.
      exact absurd ((ha.eq_root_of_reverse hxs).trans (hb.eq_root_of_reverse hys).symm) hne
    · rw [List.getLast?_concat, Option.getD_some] at hn
      subst hn
      refine ⟨above.reverse, ⟨xs.reverse, ?_⟩, ⟨ys.reverse, ?_⟩, hne⟩
      · simp [eq_of_reverse_eq hxs]
      · simp [eq_of_reverse_eq hys]
  · rintro ⟨above, ⟨xs, rfl⟩, ⟨ys, rfl⟩, hne⟩
    have hcut : ∀ (z : ν) (zs : List ν), (zs ++ z :: n :: above).reverse
        = (above.reverse ++ [n]) ++ z :: zs.reverse := by
      intro z zs
      simp
    rw [hcut, hcut, fork_append, List.getLast?_concat, Option.getD_some, fork, if_neg hne]

end Fork

omit [DecidableEq ν] in
/-- Only two reported places make a run. -/
theorem exists_indexOf_of_narrow {run : List ν} (h : t.narrow n x y = .ok (.siblings run)) :
    ∃ items i j, t.items n = some items ∧ t.indexOf n x = some i ∧ t.indexOf n y = some j
      ∧ max i j < items.length ∧ run = (items.take (max i j + 1)).drop (min i j) := by
  unfold narrow at h
  split at h
  · rename_i items i j hitems hi hj
    dsimp only at h
    split_ifs at h with hlt
    rw [Except.ok.injEq, Region.siblings.injEq] at h
    exact ⟨items, i, j, hitems, hi, hj, hlt, h.symm⟩
  · simp at h

theorem regionAt_of_partsAt (h : t.PartsAt start stop n x y) :
    t.regionAt start stop = t.narrow n x y := by
  obtain ⟨a, b, la, lb, above, ha, hb, hla, hlb, hparts⟩ := h
  have hfork := ((ancestors_eq_ok_iff.1 hla).1.fork_eq_some_iff (ancestors_eq_ok_iff.1 hlb).1).2
    ⟨above, hparts⟩
  rw [regionAt_eq_fork ha hb hla hlb, hfork]

theorem PartsAt.symm (h : t.PartsAt start stop n x y) : t.PartsAt stop start n y x := by
  obtain ⟨a, b, la, lb, above, ha, hb, hla, hlb, hx, hy, hne⟩ := h
  exact ⟨b, a, lb, la, above, hb, ha, hlb, hla, hy, hx, hne.symm⟩

theorem regionAt_of_same (ha : t.nodeAt start = .ok n) (hb : t.nodeAt stop = .ok n) :
    t.regionAt start stop = .ok (.node n) := by
  simp only [regionAt, ha, hb, bind, Except.bind, pure, Except.pure, if_true]

/-- How a region is found: both ends are at one node, or one of them is on the way up from the
other, or their ways part. -/
theorem regionAt_cases {r : Region ν} (h : t.regionAt start stop = .ok r) :
    (∃ m, t.nodeAt start = .ok m ∧ t.nodeAt stop = .ok m ∧ r = .node m)
      ∨ (∃ a b la lb m, t.nodeAt start = .ok a ∧ t.nodeAt stop = .ok b
          ∧ t.ancestors a = .ok la ∧ t.ancestors b = .ok lb
          ∧ fork t.root la.reverse lb.reverse = (m, none) ∧ r = .node m)
      ∨ ∃ m x y, t.PartsAt start stop m x y ∧ t.narrow m x y = .ok r := by
  rcases ha : t.nodeAt start with e | a
  · simp [regionAt, ha, bind, Except.bind] at h
  rcases hb : t.nodeAt stop with e | b
  · simp [regionAt, ha, hb, bind, Except.bind] at h
  by_cases hab : a = b
  · subst hab
    rw [regionAt_of_same ha hb, Except.ok.injEq] at h
    exact Or.inl ⟨a, rfl, rfl, h.symm⟩
  rcases hla : t.ancestors a with e | la
  · simp [regionAt, ha, hb, hab, hla, bind, Except.bind] at h
  rcases hlb : t.ancestors b with e | lb
  · simp [regionAt, ha, hb, hab, hla, hlb, bind, Except.bind] at h
  rw [regionAt_eq_fork ha hb hla hlb] at h
  rcases hfork : fork t.root la.reverse lb.reverse with ⟨m, _ | ⟨x, y⟩⟩
  · simp only [hfork, Except.ok.injEq] at h
    exact Or.inr (Or.inl ⟨a, b, la, lb, m, rfl, rfl, hla, hlb, hfork, h.symm⟩)
  · simp only [hfork] at h
    obtain ⟨above, hparts⟩ := ((ancestors_eq_ok_iff.1 hla).1.fork_eq_some_iff
      (ancestors_eq_ok_iff.1 hlb).1).1 hfork
    exact Or.inr (Or.inr ⟨m, x, y, ⟨a, b, la, lb, above, ha, hb, hla, hlb, hparts⟩, h⟩)

theorem regionAt_swap {r : Region ν} (h : t.regionAt start stop = .ok r) :
    t.regionAt stop start = .ok r := by
  rcases regionAt_cases h with ⟨m, ha, hb, rfl⟩ | ⟨a, b, la, lb, m, ha, hb, hla, hlb, hfork, rfl⟩
    | ⟨m, x, y, hparts, hnarrow⟩
  · exact regionAt_of_same hb ha
  · rw [regionAt_eq_fork hb ha hlb hla, fork_comm, hfork]
    rfl
  · rw [regionAt_of_partsAt hparts.symm, narrow_comm]
    exact hnarrow

theorem regionAt_symmetric (t : Tree ν) (start stop : Position) :
    (∀ r, t.regionAt start stop = .ok r ↔ t.regionAt stop start = .ok r)
      ∧ ((∃ r, t.regionAt start stop = .ok r ∧ t.regionAt stop start = .ok r)
        ∨ ∃ e e', t.regionAt start stop = .error e ∧ t.regionAt stop start = .error e')
      ∧ (∀ run, t.regionAt start stop = .ok (.siblings run) → run ≠ []
          ∧ ∃ n x y items i j, t.PartsAt start stop n x y ∧ t.items n = some items
            ∧ t.indexOf n x = some i ∧ t.indexOf n y = some j ∧ max i j < items.length
            ∧ ∃ before after, items = before ++ run ++ after ∧ before.length = min i j
              ∧ run.length = max i j + 1 - min i j)
      ∧ ∀ n x y items i j, t.PartsAt start stop n x y → t.items n = some items →
          t.indexOf n x = some i → t.indexOf n y = some j → items.length ≤ max i j →
          t.regionAt start stop = .error (.indexOutside (t.tag n) (max i j) items.length) := by
  refine ⟨fun r => ⟨regionAt_swap, regionAt_swap⟩, ?_, fun run hrun => ?_, ?_⟩
  · rcases h : t.regionAt start stop with e | r
    · rcases h' : t.regionAt stop start with e' | r
      · exact Or.inr ⟨e, e', rfl, rfl⟩
      · simp [regionAt_swap h'] at h
    · exact Or.inl ⟨r, rfl, regionAt_swap h⟩
  · rcases regionAt_cases hrun with ⟨m, -, -, hr⟩ | ⟨a, b, la, lb, m, -, -, -, -, -, hr⟩
      | ⟨n, x, y, hparts, hnarrow⟩
    · simp at hr
    · simp at hr
    · obtain ⟨items, i, j, hitems, hi, hj, hlt, rfl⟩ := exists_indexOf_of_narrow hnarrow
      have hle : min i j ≤ max i j := by omega
      obtain ⟨before, after, hsplit, hbefore, hlen⟩ := exists_around_cut hle hlt
      refine ⟨?_, n, x, y, items, i, j, hparts, hitems, hi, hj, hlt, before, after, hsplit,
        hbefore, hlen⟩
      rw [← List.length_pos_iff, hlen]
      omega
  · intro n x y items i j hparts hitems hi hj hle
    rw [regionAt_of_partsAt hparts, narrow_eq hitems hi hj, if_neg (not_lt.2 hle)]

section Example

/-- Three nodes below the root, each of which claims a wrong place. -/
def misplaced : Drawn :=
  let grown := ((Drawn.start.push "a" 0 ⟨⟨1, 1⟩, ⟨1, 1⟩⟩).push "b" 0 ⟨⟨1, 2⟩, ⟨1, 2⟩⟩).push "c" 0
    ⟨⟨1, 3⟩, ⟨1, 3⟩⟩
  ((grown.claim 1 2).claim 2 1).claim 3 (UInt64.size - 1)

/-- The run between the claimed places of the first two nodes has the third in it and not the
first. No item has the place that the third claims. -/
theorem regionAt_misplaced :
    misplaced.tree.regionAt ⟨1, 2⟩ ⟨1, 1⟩ = .ok (.siblings [2, 3])
      ∧ (∃ n x y items i j, misplaced.tree.PartsAt ⟨1, 1⟩ ⟨1, 2⟩ n x y
          ∧ misplaced.tree.items n = some items ∧ misplaced.tree.indexOf n x = some i
          ∧ misplaced.tree.indexOf n y = some j ∧ max i j < items.length
          ∧ ∃ before after, items = before ++ [2, 3] ++ after ∧ before.length = min i j
            ∧ [2, 3].length = max i j + 1 - min i j)
      ∧ misplaced.tree.regionAt ⟨1, 3⟩ ⟨1, 1⟩
          = .error (.indexOutside "root" (UInt64.size - 1) 3) := by
  have hrun : misplaced.tree.regionAt ⟨1, 1⟩ ⟨1, 2⟩ = .ok (.siblings [2, 3]) := by decide
  have hparts : misplaced.tree.PartsAt ⟨1, 3⟩ ⟨1, 1⟩ 0 3 1 :=
    ⟨3, 1, [3, 0], [1, 0], [], by decide, by decide, by decide, by decide, List.suffix_rfl,
      List.suffix_rfl, by decide⟩
  obtain ⟨hswap, -, hsiblings, -⟩ := regionAt_symmetric misplaced.tree ⟨1, 1⟩ ⟨1, 2⟩
  obtain ⟨-, -, -, houtside⟩ := regionAt_symmetric misplaced.tree ⟨1, 3⟩ ⟨1, 1⟩
  have hlarge := houtside 0 3 1 [1, 2, 3] (UInt64.size - 1) 2 hparts (by decide) (by decide)
    (by decide) (by decide)
  exact ⟨(hswap _).1 hrun, (hsiblings _ hrun).2, hlarge.trans (by decide)⟩

end Example

end SyntaxQuery.Tree
