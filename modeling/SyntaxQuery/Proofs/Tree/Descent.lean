import SyntaxQuery.Proofs.Walk
import SyntaxQuery.Tree.Descent
import SyntaxQuery.Tree.Drawn

/-!
# Descending in any tree

The descent steps from a node to its first child that holds the position, and this child depends on
the node alone. So there is one path down from the root, and `descend` finds its end exactly when it
may look at more nodes than the path leaves behind (`descend_eq_ok_iff`).

In a tree whose children stay among as many nodes as it reports, a path that ends is short enough
for that. The descent then fails for the paths without an end only, which are the ones that meet a
node twice (`nodeAt_exact`).
-/

namespace SyntaxQuery.Tree

open StateTransition (Reaches)

variable {ν : Type} {t : Tree ν} {pos : Position}

section Path

variable {looks : Nat} {n c x : ν} {l : List ν}

theorem descend_childAt_none (h : t.childAt pos n = none) :
    t.descend pos (looks + 1) n = .ok n := by
  simp only [descend, h]

theorem descend_childAt_some (h : t.childAt pos n = some c) :
    t.descend pos (looks + 1) n = t.descend pos looks c := by
  simp only [descend, h]

theorem mem_children_of_childAt (h : t.childAt pos n = some c) : c ∈ t.children n :=
  List.mem_of_find?_eq_some h

theorem descend_of_leads (h : Leads (t.childAt pos) n l x) (hx : t.childAt pos x = none)
    (hlen : l.length < looks) : t.descend pos looks n = .ok x := by
  induction h generalizing looks with
  | here n =>
    obtain ⟨looks, rfl⟩ : ∃ k, looks = k + 1 := ⟨looks - 1, by simp at hlen; omega⟩
    exact descend_childAt_none hx
  | step hm _ ih =>
    simp only [List.length_cons] at hlen
    obtain ⟨looks, rfl⟩ : ∃ k, looks = k + 1 := ⟨looks - 1, by omega⟩
    rw [descend_childAt_some hm]
    exact ih hx (by omega)

theorem exists_leads_of_descend : ∀ {looks : Nat} {n : ν}, t.descend pos looks n = .ok x →
    ∃ l, Leads (t.childAt pos) n l x ∧ t.childAt pos x = none ∧ l.length < looks
  | 0, n, h => by simp [descend] at h
  | looks + 1, n, h => by
    rcases hc : t.childAt pos n with _ | c
    · rw [descend_childAt_none hc, Except.ok.injEq] at h
      subst h
      exact ⟨[], .here n, hc, by simp⟩
    · rw [descend_childAt_some hc] at h
      obtain ⟨l, hleads, hx, hlen⟩ := exists_leads_of_descend h
      exact ⟨n :: l, .step hc hleads, hx, by simp only [List.length_cons]; omega⟩

theorem descend_eq_ok_iff : t.descend pos looks n = .ok x ↔
    ∃ l, Leads (t.childAt pos) n l x ∧ t.childAt pos x = none ∧ l.length < looks := by
  constructor
  · exact exists_leads_of_descend
  · rintro ⟨l, hleads, hx, hlen⟩
    exact descend_of_leads hleads hx hlen

theorem descend_of_forever : ∀ {looks : Nat} {n : ν}, Forever (t.childAt pos) n →
    t.descend pos looks n = .error (.endlessDescent pos)
  | 0, _, _ => rfl
  | looks + 1, n, h => by
    obtain ⟨c, hc, h⟩ := h.exists_next
    rw [descend_childAt_some hc]
    exact descend_of_forever h

end Path

section Bounded

variable {nodes : Finset ν}

theorem nodeAt_of_reaches (hcount : nodes.card ≤ t.nodeCount) (hroot : t.root ∈ nodes)
    (hchild : ∀ m ∈ nodes, ∀ c, t.childAt pos m = some c → c ∈ nodes) {n : ν}
    (h : Reaches (t.childAt pos) t.root n) (hn : t.childAt pos n = none) :
    t.nodeAt pos = .ok n := by
  obtain ⟨l, hleads⟩ := reaches_iff_leads.1 h
  have hlen := hleads.length_lt_card hchild hroot hn
  exact descend_eq_ok_iff.2 ⟨l, hleads, hn, by omega⟩

theorem nodeAt_exact (t : Tree ν) (nodes : Finset ν) (hcount : nodes.card ≤ t.nodeCount)
    (hroot : t.root ∈ nodes) (hlinks : ∀ m ∈ nodes, ∀ c ∈ t.children m, c ∈ nodes)
    (pos : Position) :
    (∀ n, t.nodeAt pos = .ok n ↔ Reaches (t.childAt pos) t.root n ∧ t.childAt pos n = none)
      ∧ (∀ e, t.nodeAt pos = .error e ↔
          e = .endlessDescent pos ∧ Forever (t.childAt pos) t.root)
      ∧ (Forever (t.childAt pos) t.root ↔ Returns (t.childAt pos) t.root) := by
  have hchild : ∀ m ∈ nodes, ∀ c, t.childAt pos m = some c → c ∈ nodes := fun m hm c hc =>
    hlinks m hm c (mem_children_of_childAt hc)
  have hends : ∀ n, Reaches (t.childAt pos) t.root n → t.childAt pos n = none →
      t.nodeAt pos = .ok n := fun _ => nodeAt_of_reaches hcount hroot hchild
  have hforever : Forever (t.childAt pos) t.root →
      t.nodeAt pos = .error (.endlessDescent pos) := descend_of_forever
  refine ⟨fun n => ⟨fun hn => ?_, fun h => hends n h.1 h.2⟩, fun e => ⟨fun he => ?_, ?_⟩,
    forever_iff_returns hchild hroot⟩
  · obtain ⟨l, hleads, hend, -⟩ := descend_eq_ok_iff.1 hn
    exact ⟨reaches_iff_leads.2 ⟨l, hleads⟩, hend⟩
  · rcases ends_or_forever (t.childAt pos) t.root with ⟨n, hn, hend⟩ | h
    · simp [hends n hn hend] at he
    · rw [hforever h, Except.error.injEq] at he
      exact ⟨he.symm, h⟩
  · rintro ⟨rfl, h⟩
    exact hforever h

/-- Four nodes in a circle: the last has the root as its child. All but the root hold the first
column, and all hold the second. -/
def circle : Listed where
  root := 0
  nodes := ⟨[(2, [1, 1]), (1, [2]), (1, [3, 1]), (1, [0])].map fun (column, children) =>
    { tag := "node", span := ⟨⟨1, column⟩, ⟨1, 2⟩⟩, parent := none, children := children,
      items := none }⟩

/-- At the first column the path ends after it has passed all four nodes. At the second it goes
round. -/
theorem nodeAt_circle :
    Reaches (circle.tree.childAt ⟨1, 1⟩) 0 3 ∧ Forever (circle.tree.childAt ⟨1, 2⟩) 0
      ∧ Returns (circle.tree.childAt ⟨1, 2⟩) 0 := by
  have h := nodeAt_exact circle.tree (Finset.range 4) (by decide) (by decide) (by decide)
  have hforever := ((h ⟨1, 2⟩).2.1 (.endlessDescent ⟨1, 2⟩)).1 (by decide)
  exact ⟨(((h ⟨1, 1⟩).1 3).1 (by decide)).1, hforever.2, (h ⟨1, 2⟩).2.2.1 hforever.2⟩

end Bounded

end SyntaxQuery.Tree
