import Mathlib.Data.List.Infix
import Mathlib.Logic.Relation
import SyntaxQuery.Tree.Region
import SyntaxQuery.Tree.Scopes

/-!
# Lineages

The lineage of a node is the walk from it over its parents to the root. It need not exist in a tree
whose links go wrong, and there is at most one (`Lineage.unique`). `ancestors` answers with the
lineage of a node whenever it is not longer than the number of nodes allows
(`ancestors_eq_ok_iff`). The nodes of a lineage are the nodes above its first
(`Lineage.mem_iff_above`), and each of them has the rest of the walk as its own lineage
(`Lineage.of_append`).
-/

namespace SyntaxQuery.Tree

variable {ν : Type} {t : Tree ν}

/-- `upper` is `lower` itself or comes after it when the parent links are followed. -/
def Above (t : Tree ν) (upper lower : ν) : Prop :=
  Relation.ReflTransGen (fun a b => t.parent a = some b) lower upper

theorem Above.refl (n : ν) : t.Above n n := Relation.ReflTransGen.refl

theorem Above.trans {a b c : ν} (hab : t.Above a b) (hbc : t.Above b c) : t.Above a c :=
  Relation.ReflTransGen.trans hbc hab

theorem Above.of_parent {c p : ν} (h : t.parent c = some p) : t.Above p c :=
  Relation.ReflTransGen.single h

/-- Going up from `n` to another node starts with the parent of `n`. -/
theorem Above.parent {m n p : ν} (h : t.Above m n) (hp : t.parent n = some p) (hne : m ≠ n) :
    t.Above m p := by
  rcases Relation.ReflTransGen.cases_head h with h | ⟨q, hq, h⟩
  · exact absurd h.symm hne
  · rw [hp, Option.some.injEq] at hq
    exact hq ▸ h

theorem Above.eq_of_parent_eq_none {m n : ν} (h : t.Above m n) (hn : t.parent n = none) :
    m = n := by
  rcases Relation.ReflTransGen.cases_head h with h | ⟨q, hq, -⟩
  · exact h.symm
  · rw [hn] at hq
    simp at hq

/-- The nodes from a node up to the root. -/
inductive Lineage (t : Tree ν) : ν → List ν → Prop
  | root : Lineage t t.root [t.root]
  | child {n p : ν} {l : List ν} (hn : n ≠ t.root) (hp : t.parent n = some p)
      (h : Lineage t p l) : Lineage t n (n :: l)

/-- The number of steps from a node up to the root. -/
def Depth (t : Tree ν) (n : ν) (d : Nat) : Prop :=
  ∃ l, t.Lineage n l ∧ l.length = d + 1

/-- `upper` is fewer steps from the root than `lower`. -/
def Shallower (t : Tree ν) (upper lower : ν) : Prop :=
  ∃ d e, t.Depth upper d ∧ t.Depth lower e ∧ d < e

namespace Lineage

theorem unique {n : ν} {l l' : List ν} (h : t.Lineage n l) (h' : t.Lineage n l') : l = l' := by
  induction h generalizing l' with
  | root =>
    cases h' with
    | root => rfl
    | child hn => exact absurd rfl hn
  | child hn hp h ih =>
    cases h' with
    | root => exact absurd rfl hn
    | child hn' hp' h' =>
      rw [hp, Option.some.injEq] at hp'
      subst hp'
      rw [ih h']

theorem head?_eq {n : ν} {l : List ν} (h : t.Lineage n l) : l.head? = some n := by
  cases h <;> rfl

theorem getLast?_eq {n : ν} {l : List ν} (h : t.Lineage n l) : l.getLast? = some t.root := by
  induction h with
  | root => rfl
  | child hn hp h ih => rw [List.getLast?_cons, ih, Option.getD_some]

theorem ne_nil {n : ν} {l : List ν} (h : t.Lineage n l) : l ≠ [] := by
  cases h <;> simp

theorem root_iff {l : List ν} : t.Lineage t.root l ↔ l = [t.root] := by
  constructor
  · intro h
    exact h.unique .root
  · rintro rfl
    exact .root

theorem ne_root_iff {n : ν} {l : List ν} (hn : n ≠ t.root) :
    t.Lineage n l ↔ ∃ p l', t.parent n = some p ∧ l = n :: l' ∧ t.Lineage p l' := by
  constructor
  · intro h
    cases h with
    | root => exact absurd rfl hn
    | child _ hp h => exact ⟨_, _, hp, rfl, h⟩
  · rintro ⟨p, l', hp, rfl, h⟩
    exact .child hn hp h

theorem eq_head {n m : ν} {l : List ν} (h : t.Lineage n (m :: l)) : m = n := by
  cases h <;> rfl

/-- What follows a node on its lineage is the lineage of its parent. -/
theorem tail {n m : ν} {l : List ν} (h : t.Lineage n (m :: l)) (hl : l ≠ []) :
    ∃ p, t.parent m = some p ∧ t.Lineage p l := by
  cases h with
  | root => exact absurd rfl hl
  | child hn hp h => exact ⟨_, hp, h⟩

/-- A walk to the root goes on from each of its nodes as the walk of that node. -/
theorem of_append {n m : ν} : ∀ {before after : List ν}, t.Lineage n (before ++ m :: after) →
    t.Lineage m (m :: after)
  | [], after, h => by
    obtain rfl := h.eq_head
    exact h
  | b :: before, after, h => by
    obtain ⟨p, -, h⟩ := tail h (by simp)
    exact of_append h

theorem mem_iff_above {n m : ν} {l : List ν} (hroot : t.parent t.root = none)
    (h : t.Lineage n l) : m ∈ l ↔ t.Above m n := by
  induction h with
  | root =>
    rw [List.mem_singleton]
    constructor
    · rintro rfl
      exact Above.refl _
    · intro h
      exact h.eq_of_parent_eq_none hroot
  | @child n p l hn hp h ih =>
    rw [List.mem_cons, ih]
    constructor
    · rintro (rfl | h)
      · exact Above.refl _
      · exact h.trans (.of_parent hp)
    · intro h
      by_cases hm : m = n
      · exact Or.inl hm
      · exact Or.inr (h.parent hp hm)

/-- The lineage of a node on a walk to the root is the end of that walk. -/
theorem suffix_of_mem {n m : ν} {l : List ν} (h : t.Lineage n l) (hm : m ∈ l) :
    ∃ l', t.Lineage m l' ∧ l' <:+ l := by
  obtain ⟨before, after, rfl⟩ := List.append_of_mem hm
  exact ⟨m :: after, h.of_append, List.suffix_append _ _⟩

/-- Next to each other on a lineage stand a node and its parent. -/
theorem parent_of_append {n a b : ν} {before after : List ν}
    (h : t.Lineage n (before ++ a :: b :: after)) : t.parent a = some b := by
  obtain ⟨p, hp, h⟩ := h.of_append.tail (List.cons_ne_nil b after)
  rw [hp, h.eq_head]

theorem depth {n : ν} {l : List ν} (h : t.Lineage n l) : t.Depth n (l.length - 1) := by
  have := List.length_pos_iff.2 h.ne_nil
  exact ⟨l, h, by omega⟩

theorem shallower {m n : ν} {lm ln : List ν} (hm : t.Lineage m lm) (hn : t.Lineage n ln)
    (h : lm.length < ln.length) : t.Shallower m n := by
  have := List.length_pos_iff.2 hm.ne_nil
  exact ⟨_, _, hm.depth, hn.depth, by omega⟩

/-- On the way to the root each node is above all before it, and less deep. -/
theorem pairwise {n : ν} {l : List ν} (hroot : t.parent t.root = none) (h : t.Lineage n l) :
    l.Pairwise fun a b => t.Above b a ∧ t.Shallower b a := by
  induction h with
  | root => exact List.pairwise_singleton _ _
  | @child n p l hn hp h ih =>
    refine List.pairwise_cons.2 ⟨fun m hm => ⟨?_, ?_⟩, ih⟩
    · exact ((h.mem_iff_above hroot).1 hm).trans (.of_parent hp)
    · obtain ⟨lm, hlm, hsuffix⟩ := h.suffix_of_mem hm
      have := hsuffix.length_le
      exact hlm.shallower (.child hn hp h) (by rw [List.length_cons]; omega)

theorem ne_root_of_mem_dropLast {n m : ν} {l : List ν} (h : t.Lineage n l)
    (hm : m ∈ l.dropLast) : m ≠ t.root := by
  induction h with
  | root => exact absurd hm List.not_mem_nil
  | child hn hp h ih =>
    rw [List.dropLast_cons_of_ne_nil h.ne_nil, List.mem_cons] at hm
    rcases hm with rfl | hm
    · exact hn
    · exact ih hm

theorem dropLast_concat {n : ν} {l : List ν} (h : t.Lineage n l) :
    l.dropLast ++ [t.root] = l := by
  obtain ⟨before, rfl⟩ := List.getLast?_eq_some_iff.1 h.getLast?_eq
  rw [List.dropLast_concat]

end Lineage

theorem Depth.unique {n : ν} {d e : Nat} (hd : t.Depth n d) (he : t.Depth n e) : d = e := by
  obtain ⟨l, hl, hd⟩ := hd
  obtain ⟨l', hl', he⟩ := he
  rw [hl.unique hl'] at hd
  omega

section Walks

variable [DecidableEq ν]

theorem climb_eq_ok_iff {anchor : ν} : ∀ {steps : Nat} {n : ν} {l : List ν},
    t.climb anchor steps n = .ok l ↔ t.Lineage n l ∧ l.length ≤ steps + 1
  | steps, n, l => by
    unfold climb
    split_ifs with hn
    · subst hn
      rw [Lineage.root_iff, Except.ok.injEq]
      constructor
      · rintro rfl
        simp
      · exact fun h => h.1.symm
    · rw [Lineage.ne_root_iff hn]
      cases steps with
      | zero =>
        -- The walk of a node below the root has two nodes at least.
        simp only [reduceCtorEq, false_iff]
        rintro ⟨⟨p, l', -, rfl, h⟩, hlen⟩
        have := List.length_pos_iff.2 h.ne_nil
        rw [List.length_cons] at hlen
        omega
      | succ steps =>
        cases hp : t.parent n with
        | none => simp
        | some p =>
          simp only [Except.map]
          constructor
          · intro h
            split at h
            · simp at h
            · rename_i l' hl'
              rw [Except.ok.injEq] at h
              obtain ⟨hl', hlen⟩ := climb_eq_ok_iff.1 hl'
              rw [← h, List.length_cons]
              exact ⟨⟨p, l', rfl, rfl, hl'⟩, by omega⟩
          · rintro ⟨⟨q, l', hq, rfl, h⟩, hlen⟩
            rw [Option.some.injEq] at hq
            subst hq
            rw [List.length_cons] at hlen
            rw [climb_eq_ok_iff.2 ⟨h, by omega⟩]

theorem ancestors_eq_ok_iff {n : ν} {l : List ν} :
    t.ancestors n = .ok l ↔ t.Lineage n l ∧ l.length ≤ t.nodeCount + 1 :=
  climb_eq_ok_iff

/-- The shared beginning of two walks down from the root, and how the walks go on from it: one of
them ends there, or they part. -/
theorem fork_spec (above : ν) : ∀ xs ys : List ν,
    ∃ shared xs' ys', xs = shared ++ xs' ∧ ys = shared ++ ys' ∧
      ((xs' = [] ∨ ys' = []) ∧ fork above xs ys = (shared.getLast?.getD above, none)
      ∨ ∃ x xs'' y ys'', xs' = x :: xs'' ∧ ys' = y :: ys'' ∧ x ≠ y
          ∧ fork above xs ys = (shared.getLast?.getD above, some (x, y)))
  | [], ys => ⟨[], [], ys, rfl, rfl, Or.inl ⟨Or.inl rfl, rfl⟩⟩
  | x :: xs, [] => ⟨[], x :: xs, [], rfl, rfl, Or.inl ⟨Or.inr rfl, rfl⟩⟩
  | x :: xs, y :: ys => by
    by_cases hxy : x = y
    · subst hxy
      obtain ⟨shared, xs', ys', rfl, rfl, h⟩ := fork_spec x xs ys
      refine ⟨x :: shared, xs', ys', rfl, rfl, ?_⟩
      rw [List.getLast?_cons, Option.getD_some, fork, if_pos rfl]
      exact h
    · refine ⟨[], x :: xs, y :: ys, rfl, rfl, Or.inr ⟨x, xs, y, ys, rfl, rfl, hxy, ?_⟩⟩
      rw [fork, if_neg hxy]
      rfl

theorem fork_self (above : ν) (xs : List ν) :
    fork above xs xs = (xs.getLast?.getD above, none) := by
  induction xs generalizing above with
  | nil => rfl
  | cons x xs ih => rw [fork, if_pos rfl, ih, List.getLast?_cons, Option.getD_some]

/-- The walk over the scopes puts each node of the lineage but the root around those before it. -/
theorem scopesFrom_eq_ok {anchor n : ν} {steps : Nat} {l : List ν} {inner : List Scope}
    (h : t.Lineage n l) (hlen : l.length ≤ steps + 1) :
    t.scopesFrom anchor steps n inner
      = .ok (l.dropLast.foldl (fun scopes m => enclose ⟨t.tag m, t.span m⟩ scopes) inner) := by
  induction h generalizing steps inner with
  | root =>
    unfold scopesFrom
    rw [if_pos rfl]
    rfl
  | @child n p l hn hp h ih =>
    rw [List.length_cons] at hlen
    have := List.length_pos_iff.2 h.ne_nil
    obtain ⟨steps, rfl⟩ : ∃ k, steps = k + 1 := ⟨steps - 1, by omega⟩
    unfold scopesFrom
    rw [if_neg hn, List.dropLast_cons_of_ne_nil h.ne_nil, List.foldl_cons]
    simp only [hp]
    exact ih (by omega)

end Walks

end SyntaxQuery.Tree
