/-!
# Tables of character numbers

A property of characters is a list of closed ranges of their numbers.
-/

namespace SyntaxQuery.Text

/-- Closed ranges of character numbers. -/
structure Ranges where
  ranges : List (Nat × Nat)

namespace Ranges

/-- Whether some range holds `n`. -/
def has (t : Ranges) (n : Nat) : Bool :=
  t.ranges.any fun r => r.1 ≤ n && n ≤ r.2

theorem has_iff {t : Ranges} {n : Nat} :
    t.has n = true ↔ ∃ r ∈ t.ranges, r.1 ≤ n ∧ n ≤ r.2 := by
  simp [has]

end Ranges

end SyntaxQuery.Text
