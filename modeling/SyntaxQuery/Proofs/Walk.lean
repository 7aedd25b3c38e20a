import Mathlib.Computability.StateTransition
import Mathlib.Data.Finset.Card
import Mathlib.Logic.Function.Iterate

/-!
# Walks along a partial function

A function that gives each node at most one next node sets out one walk from every node. The walk
comes to a node without a next one, or it goes on forever (`ends_or_forever`). A walk that ends
meets no node twice (`Leads.nodup`), so among finitely many nodes it takes fewer steps than there
are nodes (`Leads.length_lt_card`), and a walk that goes on forever is one that comes back to a node
(`forever_iff_returns`).
-/

namespace SyntaxQuery

open StateTransition (Reaches)

variable {ν : Type} {next : ν → Option ν}

/-- The walk from a node comes to another, over the nodes `l` that it leaves behind. -/
inductive Leads (next : ν → Option ν) : ν → List ν → ν → Prop
  | here (n : ν) : Leads next n [] n
  | step {n m x : ν} {l : List ν} (hm : next n = some m) (h : Leads next m l x) :
      Leads next n (n :: l) x

/-- The walk from `n` never ends. -/
def Forever (next : ν → Option ν) (n : ν) : Prop :=
  ∃ walk : ℕ → ν, walk 0 = n ∧ ∀ k, next (walk k) = some (walk (k + 1))

/-- The walk from `n` comes to a node that it has left before. -/
def Returns (next : ν → Option ν) (n : ν) : Prop :=
  ∃ l x, Leads next n l x ∧ x ∈ l

theorem reaches_iff_leads {n x : ν} : Reaches next n x ↔ ∃ l, Leads next n l x := by
  constructor
  · intro h
    induction h using Relation.ReflTransGen.head_induction_on with
    | refl => exact ⟨[], .here x⟩
    | head hm _ ih =>
      obtain ⟨l, hl⟩ := ih
      exact ⟨_, .step hm hl⟩
  · rintro ⟨l, h⟩
    induction h with
    | here n => exact Relation.ReflTransGen.refl
    | step hm _ ih => exact Relation.ReflTransGen.head hm ih

theorem ends_or_forever (next : ν → Option ν) (n : ν) :
    (∃ x, Reaches next n x ∧ next x = none) ∨ Forever next n := by
  by_cases hend : ∃ x, Reaches next n x ∧ next x = none
  · exact Or.inl hend
  · right
    -- Every node on the walk has a next one, so the walk is what iteration gives.
    have hnext : ∀ x, Reaches next n x → next x = some ((next x).getD x) := by
      intro x hx
      rcases hx' : next x with _ | y
      · exact absurd ⟨x, hx, hx'⟩ hend
      · simp
    have hreach : ∀ k, Reaches next n ((fun x => (next x).getD x)^[k] n) := by
      intro k
      induction k with
      | zero => exact Relation.ReflTransGen.refl
      | succ k ih =>
        rw [Function.iterate_succ_apply']
        exact Relation.ReflTransGen.tail ih (hnext _ ih)
    refine ⟨fun k => (fun x => (next x).getD x)^[k] n, rfl, fun k => ?_⟩
    simp only [Function.iterate_succ_apply']
    exact hnext _ (hreach k)

theorem Forever.exists_next {n : ν} (h : Forever next n) :
    ∃ m, next n = some m ∧ Forever next m := by
  obtain ⟨walk, rfl, hwalk⟩ := h
  exact ⟨walk 1, hwalk 0, fun k => walk (k + 1), rfl, fun k => hwalk (k + 1)⟩

namespace Leads

variable {n x : ν} {l : List ν}

/-- There is only one way to an end. -/
theorem unique {y : ν} {l' : List ν} (h : Leads next n l x) (h' : Leads next n l' y)
    (hx : next x = none) (hy : next y = none) : l = l' ∧ x = y := by
  induction h generalizing l' with
  | here n =>
    cases h' with
    | here => exact ⟨rfl, rfl⟩
    | step hm => simp [hx] at hm
  | step hm _ ih =>
    cases h' with
    | here => simp [hy] at hm
    | step hm' h' =>
      rw [hm, Option.some.injEq] at hm'
      subst hm'
      obtain ⟨rfl, rfl⟩ := ih h' hx
      exact ⟨rfl, rfl⟩

theorem concat {y : ν} (h : Leads next n l x) (hy : next x = some y) :
    Leads next n (l ++ [x]) y := by
  induction h with
  | here n => exact .step hy (.here y)
  | step hm _ ih => exact .step hm (ih hy)

/-- Where a walk has an end, all that it passes lies on the way there. -/
theorem isPrefix {y : ν} {l' : List ν} (h : Leads next n l x) (h' : Leads next n l' y)
    (hy : next y = none) : l ++ [x] <+: l' ++ [y] := by
  induction h generalizing l' with
  | here n => cases h' <;> simp
  | step hm _ ih =>
    cases h' with
    | here => simp [hy] at hm
    | step hm' h' =>
      rw [hm, Option.some.injEq] at hm'
      subst hm'
      rw [List.cons_append, List.cons_append, List.cons_prefix_cons]
      exact ⟨rfl, ih h'⟩

/-- From a node on the way the walk goes on over the rest of the way. -/
theorem of_mem {m : ν} (h : Leads next n l x) (hm : m ∈ l ++ [x]) :
    ∃ l', Leads next m l' x ∧ l'.length ≤ l.length := by
  induction h with
  | here n =>
    simp only [List.nil_append, List.mem_singleton] at hm
    subst hm
    exact ⟨[], .here m, le_rfl⟩
  | @step n p x l hp h ih =>
    simp only [List.cons_append, List.mem_cons] at hm
    rcases hm with rfl | hm
    · exact ⟨m :: l, .step hp h, le_rfl⟩
    · obtain ⟨l', hl', hlen⟩ := ih hm
      exact ⟨l', hl', by simp only [List.length_cons]; omega⟩

theorem nodup (h : Leads next n l x) (hx : next x = none) : (l ++ [x]).Nodup := by
  induction h with
  | here n => simp
  | @step n m x l hm h ih =>
    rw [List.cons_append, List.nodup_cons]
    refine ⟨fun hn => ?_, ih hx⟩
    -- A second visit would give `n` a shorter way to the same end.
    obtain ⟨l', hl', hlen⟩ := h.of_mem hn
    obtain ⟨rfl, -⟩ := hl'.unique (.step hm h) hx hx
    simp only [List.length_cons] at hlen
    omega

theorem mem_of_closed {nodes : Finset ν} (hclosed : ∀ m ∈ nodes, ∀ p, next m = some p → p ∈ nodes)
    (h : Leads next n l x) (hn : n ∈ nodes) : ∀ m ∈ l ++ [x], m ∈ nodes := by
  induction h with
  | here n => simpa using hn
  | @step n p x l hp h ih =>
    intro m hm
    simp only [List.cons_append, List.mem_cons] at hm
    rcases hm with rfl | hm
    · exact hn
    · exact ih (hclosed n hn p hp) m hm

theorem length_lt_card_of_nodup {nodes : Finset ν}
    (hclosed : ∀ m ∈ nodes, ∀ p, next m = some p → p ∈ nodes) (h : Leads next n l x)
    (hn : n ∈ nodes) (hnodup : (l ++ [x]).Nodup) : l.length < nodes.card := by
  classical
  have hsub : (l ++ [x]).toFinset ⊆ nodes := fun m hm =>
    h.mem_of_closed hclosed hn m (List.mem_toFinset.1 hm)
  have hcard := Finset.card_le_card hsub
  rw [List.toFinset_card_of_nodup hnodup] at hcard
  simp only [List.length_append, List.length_cons, List.length_nil] at hcard
  omega

theorem length_lt_card {nodes : Finset ν}
    (hclosed : ∀ m ∈ nodes, ∀ p, next m = some p → p ∈ nodes) (h : Leads next n l x)
    (hn : n ∈ nodes) (hx : next x = none) : l.length < nodes.card :=
  h.length_lt_card_of_nodup hclosed hn (h.nodup hx)

end Leads

theorem Returns.forever {n : ν} (h : Returns next n) : Forever next n := by
  obtain ⟨l, x, hleads, hx⟩ := h
  rcases ends_or_forever next n with ⟨y, hy, hend⟩ | hforever
  · obtain ⟨l', hleads'⟩ := reaches_iff_leads.1 hy
    have hnodup := (hleads'.nodup hend).sublist (hleads.isPrefix hleads' hend).sublist
    exact absurd rfl ((List.nodup_append.1 hnodup).2.2 x hx x (by simp))
  · exact hforever

/-- A walk that never comes back can be followed for any number of steps, to a new node each. -/
theorem Forever.exists_nodup {n : ν} (h : Forever next n) (hnot : ¬ Returns next n) (k : ℕ) :
    ∃ l x, Leads next n l x ∧ l.length = k ∧ (l ++ [x]).Nodup := by
  obtain ⟨walk, rfl, hwalk⟩ := h
  suffices hall : ∃ l, Leads next (walk 0) l (walk k) ∧ l.length = k ∧ (l ++ [walk k]).Nodup by
    obtain ⟨l, hl⟩ := hall
    exact ⟨l, walk k, hl⟩
  induction k with
  | zero => exact ⟨[], .here _, rfl, by simp⟩
  | succ k ih =>
    obtain ⟨l, hleads, hlen, hnodup⟩ := ih
    have hnext := hleads.concat (hwalk k)
    have hnew : walk (k + 1) ∉ l ++ [walk k] := fun hmem => hnot ⟨_, _, hnext, hmem⟩
    refine ⟨l ++ [walk k], hnext, by simp [hlen], ?_⟩
    rw [← List.concat_eq_append]
    exact hnodup.concat hnew

theorem forever_iff_returns {nodes : Finset ν}
    (hclosed : ∀ m ∈ nodes, ∀ p, next m = some p → p ∈ nodes) {n : ν} (hn : n ∈ nodes) :
    Forever next n ↔ Returns next n := by
  refine ⟨fun h => ?_, Returns.forever⟩
  by_contra hnot
  -- As many steps as there are nodes would pass one node more than there are.
  obtain ⟨l, x, hleads, hlen, hnodup⟩ := h.exists_nodup hnot nodes.card
  exact (hleads.length_lt_card_of_nodup hclosed hn hnodup).ne hlen

end SyntaxQuery
