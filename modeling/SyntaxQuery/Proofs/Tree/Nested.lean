import SyntaxQuery.Proofs.Position
import SyntaxQuery.Proofs.Tree.Lineage

/-!
# Numbered trees with nested spans

In a `Numbered` tree the nodes are the numbers below `nodeCount`, parents and children agree, and a
parent has a smaller number than its children. That alone makes every walk end: a node has a
lineage (`Numbered.exists_lineage`), and the descent to a position reaches a node none of whose
children holds it (`Numbered.exists_nodeAt`).

In a `Nested` tree the span of a child lies inside that of its parent and the spans of siblings
follow each other. Then the descent never goes wrong: its end is the `Innermost` node, below every
node that holds the position (`nodeAt_innermost`), and no other node is (`Innermost.unique`).
-/

namespace SyntaxQuery.Tree

/-- Nodes are numbered from the root on, and the links among them agree. -/
structure Numbered (t : Tree Nat) : Prop where
  root_eq : t.root = 0
  root_lt : 0 < t.nodeCount
  parent_root : t.parent 0 = none
  exists_parent : ∀ {n}, n ≠ 0 → n < t.nodeCount → ∃ p, t.parent n = some p
  parent_lt : ∀ {n p}, t.parent n = some p → p < n
  lt_nodeCount : ∀ {n p}, t.parent n = some p → n < t.nodeCount
  mem_children : ∀ {p c}, c ∈ t.children p ↔ t.parent c = some p
  children_lt : ∀ p, (t.children p).Pairwise (· < ·)
  items_eq : ∀ {n is}, t.items n = some is → is = t.children n
  indexOf_eq : t.indexOf = firstIndex t.items

/-- Children lie inside their parent, and siblings one after the other. -/
structure Nested (t : Tree Nat) : Prop where
  inside : ∀ {c p}, t.parent c = some p → t.span c ≤ t.span p
  apart : ∀ p, (t.children p).Pairwise fun a b => (t.span a).Before (t.span b)

/-- The node that a position belongs to: it holds the position, unless it is the root, and all
nodes that hold the position are above it. -/
structure Innermost (t : Tree Nat) (pos : Position) (n : Nat) : Prop where
  lt_nodeCount : n < t.nodeCount
  mem_or_root : pos ∈ t.span n ∨ n = t.root
  above : ∀ m < t.nodeCount, pos ∈ t.span m → t.Above m n

variable {t : Tree Nat} {pos : Position}

namespace Numbered

theorem parent_root' (h : t.Numbered) : t.parent t.root = none := by
  rw [h.root_eq]
  exact h.parent_root

theorem le_of_above (h : t.Numbered) {m n : Nat} (ha : t.Above m n) : m ≤ n := by
  induction ha with
  | refl => exact le_rfl
  | tail _ hp ih => exact (h.parent_lt hp).le.trans ih

theorem above_antisymm (h : t.Numbered) {m n : Nat} (hmn : t.Above m n) (hnm : t.Above n m) :
    m = n :=
  le_antisymm (h.le_of_above hmn) (h.le_of_above hnm)

theorem eq_root_of_above (h : t.Numbered) {m : Nat} (ha : t.Above m t.root) : m = t.root :=
  ha.eq_of_parent_eq_none h.parent_root'

theorem nodup_children (h : t.Numbered) (p : Nat) : (t.children p).Nodup :=
  (h.children_lt p).imp ne_of_lt

theorem exists_lineage (h : t.Numbered) :
    ∀ n, n < t.nodeCount → ∃ l, t.Lineage n l ∧ l.length ≤ n + 1 := by
  intro n
  induction n using Nat.strong_induction_on with
  | _ n ih =>
    intro hn
    by_cases h0 : n = 0
    · subst h0
      refine ⟨[0], ?_, le_rfl⟩
      have := Lineage.root (t := t)
      rwa [h.root_eq] at this
    · obtain ⟨p, hp⟩ := h.exists_parent h0 hn
      have hlt := h.parent_lt hp
      obtain ⟨l, hl, hlen⟩ := ih p hlt (hlt.trans hn)
      refine ⟨n :: l, .child ?_ hp hl, ?_⟩
      · rw [h.root_eq]
        exact h0
      · rw [List.length_cons]
        omega

theorem exists_ancestors (h : t.Numbered) {n : Nat} (hn : n < t.nodeCount) :
    ∃ l, t.ancestors n = .ok l ∧ t.Lineage n l := by
  obtain ⟨l, hl, hlen⟩ := h.exists_lineage n hn
  exact ⟨l, ancestors_eq_ok_iff.2 ⟨hl, by omega⟩, hl⟩

theorem root_above (h : t.Numbered) {n : Nat} (hn : n < t.nodeCount) : t.Above t.root n := by
  obtain ⟨l, hl, -⟩ := h.exists_lineage n hn
  rw [← hl.mem_iff_above h.parent_root']
  exact List.mem_of_getLast? hl.getLast?_eq

theorem childAt_eq_some (h : t.Numbered) {n c : Nat} (hc : t.childAt pos n = some c) :
    t.parent c = some n ∧ pos ∈ t.span c := by
  unfold childAt at hc
  refine ⟨h.mem_children.1 (List.mem_of_find?_eq_some hc), ?_⟩
  simpa using List.find?_some hc

theorem childAt_eq_none {n : Nat} :
    t.childAt pos n = none ↔ ∀ c ∈ t.children n, pos ∉ t.span c := by
  simp [childAt]

/-- Each step of the descent goes to a larger number, so `looks` nodes are enough to come to its
end. -/
theorem exists_descend (h : t.Numbered) : ∀ looks n, n < t.nodeCount → t.nodeCount ≤ n + looks →
    ∃ m, t.descend pos looks n = .ok m ∧ m < t.nodeCount ∧ (pos ∈ t.span m ∨ m = n)
      ∧ ∀ c ∈ t.children m, pos ∉ t.span c
  | 0, n, hn, hlooks => by omega
  | looks + 1, n, hn, hlooks => by
    unfold descend
    cases hc : t.childAt pos n with
    | none => exact ⟨n, rfl, hn, Or.inr rfl, childAt_eq_none.1 hc⟩
    | some c =>
      obtain ⟨hp, hmem⟩ := h.childAt_eq_some hc
      have hlt := h.parent_lt hp
      obtain ⟨m, hm, hcount, hor, hend⟩ :=
        exists_descend h looks c (h.lt_nodeCount hp) (by omega)
      refine ⟨m, hm, hcount, Or.inl ?_, hend⟩
      rcases hor with hor | rfl
      · exact hor
      · exact hmem

theorem exists_nodeAt (h : t.Numbered) (pos : Position) :
    ∃ n, t.nodeAt pos = .ok n ∧ n < t.nodeCount ∧ (pos ∈ t.span n ∨ n = t.root)
      ∧ ∀ c ∈ t.children n, pos ∉ t.span c := by
  refine h.exists_descend t.nodeCount t.root ?_ (by omega)
  rw [h.root_eq]
  exact h.root_lt

end Numbered

namespace Nested

theorem span_le_of_above (h : t.Nested) {m n : Nat} (ha : t.Above m n) : t.span n ≤ t.span m := by
  induction ha with
  | refl => exact le_rfl
  | tail _ hp ih => exact ih.trans (h.inside hp)

theorem mem_of_above (h : t.Nested) {m n : Nat} (ha : t.Above m n) (hn : pos ∈ t.span n) :
    pos ∈ t.span m :=
  Span.mem_of_le (h.span_le_of_above ha) hn

/-- No position lies in two siblings. -/
theorem eq_of_mem_children (h : t.Nested) {p a b : Nat} (ha : a ∈ t.children p)
    (hb : b ∈ t.children p) (hpa : pos ∈ t.span a) (hpb : pos ∈ t.span b) : a = b := by
  have hpair : (t.children p).Pairwise fun a b => pos ∈ t.span a → pos ∈ t.span b → a = b :=
    (h.apart p).imp fun hab hpa hpb => absurd hpb (hab.not_mem hpa)
  have hflip := hpair.imp fun hab hpb hpa => (hab hpa hpb).symm
  exact hpair.forall_of_forall_of_flip (fun _ _ _ _ => rfl) hflip ha hb hpa hpb

end Nested

/-- The descent from a node passes every node below it that holds the position. -/
theorem above_of_descend (h : t.Numbered) (hs : t.Nested) :
    ∀ looks n m k, t.descend pos looks n = .ok m → t.Above n k → pos ∈ t.span k → t.Above k m
  | 0, n, m, k, hd, _, _ => by simp [descend] at hd
  | looks + 1, n, m, k, hd, hnk, hk => by
    unfold descend at hd
    -- Unless it is `n` itself, `k` lies below one child of `n`: the one that the descent takes.
    rcases Relation.ReflTransGen.cases_tail hnk with rfl | ⟨c, hkc, hc⟩
    · cases hc : t.childAt pos n with
      | none =>
        rw [hc] at hd
        simp only [Except.ok.injEq] at hd
        rw [hd]
        exact .refl m
      | some d =>
        rw [hc] at hd
        obtain ⟨hp, hmem⟩ := h.childAt_eq_some hc
        have := above_of_descend h hs looks d m d hd (.refl d) hmem
        exact (Above.of_parent hp).trans this
    · have hcmem : pos ∈ t.span c := hs.mem_of_above hkc hk
      have hcc : c ∈ t.children n := h.mem_children.2 hc
      cases hd' : t.childAt pos n with
      | none => exact absurd hcmem (Numbered.childAt_eq_none.1 hd' c hcc)
      | some d =>
        rw [hd'] at hd
        obtain ⟨hp, hmem⟩ := h.childAt_eq_some hd'
        obtain rfl : d = c := hs.eq_of_mem_children (h.mem_children.2 hp) hcc hmem hcmem
        exact above_of_descend h hs looks d m k hd hkc hk

theorem nodeAt_innermost (h : t.Numbered) (hs : t.Nested) (pos : Position) :
    ∃ n, t.nodeAt pos = .ok n ∧ t.Innermost pos n := by
  obtain ⟨n, hn, hcount, hor, -⟩ := h.exists_nodeAt pos
  refine ⟨n, hn, hcount, hor, fun m hm hmem => ?_⟩
  exact above_of_descend h hs _ _ n m hn (h.root_above hm) hmem

namespace Innermost

variable {n : Nat}

theorem unique (h : t.Numbered) (hn : t.Innermost pos n) {m : Nat} (hm : t.Innermost pos m) :
    m = n := by
  rcases hm.mem_or_root with hm' | rfl
  · have hmn := hn.above m hm.lt_nodeCount hm'
    rcases hn.mem_or_root with hn' | rfl
    · exact h.above_antisymm hmn (hm.above n hn.lt_nodeCount hn')
    · exact h.eq_root_of_above hmn
  · rcases hn.mem_or_root with hn' | rfl
    · exact (h.eq_root_of_above (hm.above n hn.lt_nodeCount hn')).symm
    · rfl

theorem mem_of_ne_root (hn : t.Innermost pos n) (hne : n ≠ t.root) : pos ∈ t.span n :=
  hn.mem_or_root.resolve_right hne

theorem mem_iff_above (hs : t.Nested) (hn : t.Innermost pos n) (hmem : pos ∈ t.span n) {m : Nat}
    (hm : m < t.nodeCount) : pos ∈ t.span m ↔ t.Above m n :=
  ⟨hn.above m hm, fun ha => hs.mem_of_above ha hmem⟩

theorem not_mem_children (h : t.Numbered) (hn : t.Innermost pos n) {c : Nat}
    (hc : c ∈ t.children n) : pos ∉ t.span c := by
  intro hmem
  have hp := h.mem_children.1 hc
  have := h.le_of_above (hn.above c (h.lt_nodeCount hp) hmem)
  have := h.parent_lt hp
  omega

end Innermost

end SyntaxQuery.Tree
