import Mathlib.Order.Lattice
import SyntaxQuery.Position

/-!
# The order of positions and of spans

Positions are linearly ordered, row by row. Spans are ordered by inclusion of their corners: what a
span holds, every span above it holds too (`Span.mem_of_le`). Two spans of which one ends before
the other starts hold no position in common (`Span.Before.not_mem`).
-/

namespace SyntaxQuery

namespace Position

theorem le_iff {a b : Position} :
    a ≤ b ↔ a.row.toNat < b.row.toNat
      ∨ a.row.toNat = b.row.toNat ∧ a.column.toNat ≤ b.column.toNat := by
  show (a.row < b.row ∨ a.row = b.row ∧ a.column ≤ b.column) ↔ _
  rw [UInt32.lt_iff_toNat_lt, UInt32.le_iff_toNat_le, ← UInt32.toNat_inj]

theorem lt_iff {a b : Position} :
    a < b ↔ a.row.toNat < b.row.toNat
      ∨ a.row.toNat = b.row.toNat ∧ a.column.toNat < b.column.toNat := by
  show (a.row < b.row ∨ a.row = b.row ∧ a.column < b.column) ↔ _
  rw [UInt32.lt_iff_toNat_lt, UInt32.lt_iff_toNat_lt, ← UInt32.toNat_inj]

theorem eq_iff {a b : Position} :
    a = b ↔ a.row.toNat = b.row.toNat ∧ a.column.toNat = b.column.toNat := by
  cases a
  cases b
  simp only [mk.injEq, UInt32.toNat_inj]

instance : LinearOrder Position where
  le_refl a := by
    rw [le_iff]
    omega
  le_trans a b c hab hbc := by
    rw [le_iff] at hab hbc ⊢
    omega
  le_antisymm a b hab hba := by
    rw [le_iff] at hab hba
    rw [eq_iff]
    omega
  lt_iff_le_not_ge a b := by
    rw [lt_iff, le_iff, le_iff]
    omega
  le_total a b := by
    rw [le_iff, le_iff]
    omega
  toDecidableLE := inferInstance
  toDecidableEq := inferInstance
  toDecidableLT := inferInstance
  compare_eq_compareOfLessAndEq _ _ := rfl

end Position

namespace Span

theorem mem_iff {s : Span} {p : Position} : p ∈ s ↔ s.topLeft ≤ p ∧ p ≤ s.bottomRight := Iff.rfl

/-- A span lies below another when it reaches no further on either side. -/
instance : PartialOrder Span where
  le a b := b.topLeft ≤ a.topLeft ∧ a.bottomRight ≤ b.bottomRight
  le_refl a := ⟨le_rfl, le_rfl⟩
  le_trans _ _ _ hab hbc := ⟨hbc.1.trans hab.1, hab.2.trans hbc.2⟩
  le_antisymm a b hab hba := by
    cases a
    cases b
    rw [mk.injEq]
    exact ⟨le_antisymm hba.1 hab.1, le_antisymm hab.2 hba.2⟩

theorem mem_of_le {a b : Span} {p : Position} (h : a ≤ b) (hp : p ∈ a) : p ∈ b :=
  ⟨h.1.trans hp.1, hp.2.trans h.2⟩

/-- The first span ends before the second starts. -/
def Before (a b : Span) : Prop := a.bottomRight < b.topLeft

instance (a b : Span) : Decidable (a.Before b) :=
  inferInstanceAs (Decidable (a.bottomRight < b.topLeft))

theorem Before.not_mem {a b : Span} {p : Position} (h : a.Before b) (hp : p ∈ a) : p ∉ b :=
  fun hq => absurd (hp.2.trans_lt h) (not_lt_of_ge hq.1)

/-- What stands in the earlier span comes before what stands in the later one. -/
theorem Before.lt {a b : Span} {p q : Position} (h : a.Before b) (hp : p ∈ a) (hq : q ∈ b) :
    p < q :=
  (hp.2.trans_lt h).trans_le hq.1

end Span

end SyntaxQuery
