import SyntaxQuery.Text.Blank
import SyntaxQuery.Text.Numeral

/-!
# Positions and spans

Rows and columns count from one and columns count characters. Positions are ordered row by row,
and a span holds every position from its top left to its bottom right, both included; a span whose
bottom right comes first holds none. A position is written `ROW:COLUMN`.
-/

namespace SyntaxQuery

/-- A place in a text. -/
structure Position where
  row : UInt32
  column : UInt32
deriving DecidableEq, Repr, Inhabited

/-- Why a text is no position. -/
inductive PositionError where
  | noColon (text : String)
  | badNumber (part : String) (cause : Text.NumeralError)
deriving DecidableEq, Repr

namespace PositionError

def message : PositionError → String
  | noColon text => "expected ROW:COLUMN, got `" ++ text ++ "`"
  | badNumber part cause => "`" ++ part ++ "`: " ++ cause.message

end PositionError

namespace Position

/-- Row by row, and by column within a row. -/
instance : LE Position where
  le a b := a.row < b.row ∨ a.row = b.row ∧ a.column ≤ b.column

instance : LT Position where
  lt a b := a.row < b.row ∨ a.row = b.row ∧ a.column < b.column

instance (a b : Position) : Decidable (a ≤ b) :=
  inferInstanceAs (Decidable (a.row < b.row ∨ a.row = b.row ∧ a.column ≤ b.column))

instance (a b : Position) : Decidable (a < b) :=
  inferInstanceAs (Decidable (a.row < b.row ∨ a.row = b.row ∧ a.column < b.column))

instance : Ord Position where
  compare a b := if a < b then .lt else if a = b then .eq else .gt

def toText (p : Position) : String :=
  toString p.row.toNat ++ ":" ++ toString p.column.toNat

/-- One of the two numbers of a position; blanks around it do not count. -/
def readPart (part : List Char) : Except PositionError UInt32 :=
  match Text.Numeral.read Text.maxWord32 (Text.trim part) with
  | .ok n => .ok (UInt32.ofNat n)
  | .error e => .error (.badNumber (String.ofList part) e)

/-- Read `ROW:COLUMN`. The first colon divides, and a bad row is reported before a bad column. -/
def read (text : String) : Except PositionError Position :=
  match text.toList.span (· ≠ ':') with
  | (_, []) => .error (.noColon text)
  | (row, _ :: column) => do
    let row ← readPart row
    let column ← readPart column
    return ⟨row, column⟩

end Position

/-- The positions from `topLeft` to `bottomRight`. -/
structure Span where
  topLeft : Position
  bottomRight : Position
deriving DecidableEq, Repr, Inhabited

namespace Span

instance : Membership Position Span where
  mem s p := s.topLeft ≤ p ∧ p ≤ s.bottomRight

instance (p : Position) (s : Span) : Decidable (p ∈ s) :=
  inferInstanceAs (Decidable (s.topLeft ≤ p ∧ p ≤ s.bottomRight))

def toText (s : Span) : String :=
  s.topLeft.toText ++ "-" ++ s.bottomRight.toText

end Span

end SyntaxQuery
