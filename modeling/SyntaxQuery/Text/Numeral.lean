/-!
# Decimal numerals with a limit

A numeral is one or more ASCII digits after an optional plus sign, and its value must not pass the
limit. `read` reports the first thing that is wrong, reading from the left.
-/

namespace SyntaxQuery.Text

/-- Why a text is no numeral within the limit. -/
inductive NumeralError where
  | empty
  | invalidDigit
  | tooLarge
deriving DecidableEq, Repr

namespace NumeralError

def message : NumeralError → String
  | empty => "cannot parse integer from empty string"
  | invalidDigit => "invalid digit found in string"
  | tooLarge => "number too large to fit in target type"

end NumeralError

namespace Numeral

/-- The value of an ASCII digit. -/
def digit? (c : Char) : Option Nat :=
  if '0' ≤ c ∧ c ≤ '9' then some (c.toNat - '0'.toNat) else none

/-- Continue the numeral with value `acc` by the digits `cs`. -/
def readDigits (limit : Nat) : Nat → List Char → Except NumeralError Nat
  | acc, [] => .ok acc
  | acc, c :: cs =>
    match digit? c with
    | none => .error .invalidDigit
    | some d =>
      if limit < 10 * acc + d then .error .tooLarge else readDigits limit (10 * acc + d) cs

/-- The value of a numeral of at most `limit`. -/
def read (limit : Nat) : List Char → Except NumeralError Nat
  | [] => .error .empty
  | ['+'] => .error .invalidDigit
  | '+' :: c :: cs => readDigits limit 0 (c :: cs)
  | c :: cs => readDigits limit 0 (c :: cs)

end Numeral

/-- The largest word of 64 bits. -/
def maxWord64 : Nat := 18446744073709551615

/-- The largest word of 32 bits. -/
def maxWord32 : Nat := 4294967295

theorem toNat_le_maxWord64 (n : UInt64) : n.toNat ≤ maxWord64 :=
  Nat.le_of_lt_succ n.toNat_lt

theorem toNat_le_maxWord32 (n : UInt32) : n.toNat ≤ maxWord32 :=
  Nat.le_of_lt_succ n.toNat_lt

end SyntaxQuery.Text
