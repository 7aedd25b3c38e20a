import SyntaxQuery.Proofs.Tree.Region

/-!
# Walks in a numbered tree never fail

The walks guard against links that lead nowhere: against a descent that looks at more nodes than
there are, a climb with more steps than that, and an index past the items of a container. In a
numbered tree none of the guards is ever met, whatever the spans are. The number of a node bounds
the steps from it to the root (`Numbered.exists_lineage`), a first index is an index
(`Numbered.getElem?_of_indexOf`), and so `narrow` answers by the container or by a run of its
children (`Numbered.narrow_cases`) and `regionAt` always answers (`Numbered.exists_regionAt`).
-/

namespace SyntaxQuery.Tree

theorem getElem?_of_firstIndex {ν : Type} [DecidableEq ν] {items : ν → Option (List ν)}
    {container child : ν} {is : List ν} {i : Nat} (his : items container = some is)
    (h : firstIndex items container child = some i) : is[i]? = some child := by
  simp only [firstIndex, his, Option.bind_some, List.findIdx?_eq_some_iff_getElem,
    decide_eq_true_eq] at h
  obtain ⟨hlt, heq, -⟩ := h
  rw [List.getElem?_eq_getElem hlt, heq]

theorem exists_firstIndex {ν : Type} [DecidableEq ν] {items : ν → Option (List ν)}
    {container child : ν} {is : List ν} (his : items container = some is) (h : child ∈ is) :
    ∃ i, firstIndex items container child = some i := by
  simp only [firstIndex, his, Option.bind_some]
  rw [← Option.isSome_iff_exists, List.findIdx?_isSome, List.any_eq_true]
  exact ⟨child, h, by simp⟩

namespace Numbered

variable {t : Tree Nat}

theorem exists_scopes (h : t.Numbered) {n : Nat} (hn : n < t.nodeCount) :
    ∃ scopes, t.scopes n = .ok scopes := by
  obtain ⟨l, hl, hlen⟩ := h.exists_lineage n hn
  unfold scopes
  rw [scopesFrom_eq_ok hl (by omega)]
  exact ⟨_, rfl⟩

theorem getElem?_of_indexOf (h : t.Numbered) {n child i : Nat} {is : List Nat}
    (his : t.items n = some is) (hi : t.indexOf n child = some i) : is[i]? = some child := by
  rw [h.indexOf_eq] at hi
  exact getElem?_of_firstIndex his hi

theorem exists_indexOf (h : t.Numbered) {n child : Nat} {is : List Nat}
    (his : t.items n = some is) (hchild : child ∈ is) : ∃ i, t.indexOf n child = some i := by
  rw [h.indexOf_eq]
  exact exists_firstIndex his hchild

/-- All that narrowing can give: the container as a whole, or a run of its children. -/
theorem narrow_cases (h : t.Numbered) (n a b : Nat) :
    t.narrow n a b = .ok (.node n)
      ∨ ∃ before run after, (t.items n).isSome ∧ t.children n = before ++ run ++ after
          ∧ run ≠ [] ∧ t.narrow n a b = .ok (.siblings run) := by
  unfold narrow
  split
  · rename_i items i j his hi hj
    right
    have hi' := (List.getElem?_eq_some_iff.1 (h.getElem?_of_indexOf his hi)).1
    have hj' := (List.getElem?_eq_some_iff.1 (h.getElem?_of_indexOf his hj)).1
    have hhigh : max i j < items.length := max_lt hi' hj'
    have hle : min i j ≤ max i j := by omega
    obtain ⟨before, after, hsplit, -, hlen⟩ := exists_around_cut hle hhigh
    refine ⟨before, (items.take (max i j + 1)).drop (min i j), after, by simp [his], ?_, ?_, ?_⟩
    · rw [← h.items_eq his]
      exact hsplit
    · rw [← List.length_pos_iff, hlen]
      omega
    · simp only [if_pos hhigh]
  · exact Or.inl rfl

theorem exists_regionAt (h : t.Numbered) (start stop : Position) :
    ∃ r, t.regionAt start stop = .ok r := by
  obtain ⟨a, ha, hlt, -⟩ := h.exists_nodeAt start
  obtain ⟨b, hb, hlt', -⟩ := h.exists_nodeAt stop
  obtain ⟨la, hla, -⟩ := h.exists_ancestors hlt
  obtain ⟨lb, hlb, -⟩ := h.exists_ancestors hlt'
  rw [regionAt_eq_fork ha hb hla hlb]
  rcases fork t.root la.reverse lb.reverse with ⟨n, _ | ⟨x, y⟩⟩
  · exact ⟨_, rfl⟩
  · rcases h.narrow_cases n x y with heq | ⟨-, run, -, -, -, -, heq⟩ <;> exact ⟨_, heq⟩

end Numbered

end SyntaxQuery.Tree
