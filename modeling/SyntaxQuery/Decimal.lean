import SyntaxQuery.Binary64

/-!
# Shortest decimals

The shortest decimal of a magnitude is the one with the fewest digits among those that are nearer
to it than to any other magnitude, and the nearest of these. It is found on the grids of one, two,
up to seventeen digits by testing the two grid points next to the magnitude.
-/

namespace SyntaxQuery

/-- The number `digits * 10 ^ exponent`. -/
structure Decimal where
  digits : Nat
  exponent : Int
deriving DecidableEq, Repr

namespace Decimal

def numerator (d : Decimal) : Nat := d.digits * tens d.exponent.toNat

def denominator (d : Decimal) : Nat := tens (-d.exponent).toNat

/-- Whether `d` rounds to `x`: it lies between the midpoints to the two neighbours of `x`, or on
one of them when the mantissa of `x` is even. -/
def roundsTo (d : Decimal) (x : Magnitude) : Bool :=
  -- Four times `x`, in units of a quarter of its last place, with the two midpoints.
  let half : Nat := if x.mantissa = Magnitude.minMantissa ∧ Magnitude.minExponent < x.exponent then 1 else 2
  let low := 4 * x.mantissa - half
  let high := 4 * x.mantissa + 2
  let value := 4 * d.numerator * twos (-x.exponent).toNat
  let unit := d.denominator * twos x.exponent.toNat
  if x.mantissa % 2 = 0 then low * unit ≤ value && value ≤ high * unit
  else low * unit < value && value < high * unit

/-- The power of ten of the first digit of `num / den`, which is positive and not below
`10 ^ (-330)`. -/
def leadingPower (num den : Nat) : Int :=
  ((Nat.toDigits 10 (num * tens 330 / den)).length : Int) - 331

/-- The nearer to `x` of two neighbours on one grid, the even one of two that are equally near. -/
def nearer (x : Magnitude) (low high : Decimal) : Decimal :=
  let twice := 2 * x.numerator * low.denominator
  let middle := (low.numerator + high.numerator) * x.denominator
  if twice < middle then low
  else if middle < twice then high
  else if low.digits % 2 = 0 then low else high

/-- The grid point with `n` digits that stands for `x`, if one does. -/
def onGrid? (x : Magnitude) (n : Nat) : Option Decimal :=
  let e := leadingPower x.numerator x.denominator - n + 1
  let k := x.numerator * tens (-e).toNat / (x.denominator * tens e.toNat)
  let low : Decimal := ⟨k, e⟩
  let high : Decimal := ⟨k + 1, e⟩
  match low.roundsTo x, high.roundsTo x with
  | true, true => some (nearer x low high)
  | true, false => some low
  | false, true => some high
  | false, false => none

/-- `d` without the zeros at the end of its digits. -/
def dropZeros : Nat → Decimal → Decimal
  | 0, d => d
  | fuel + 1, d =>
    if d.digits ≠ 0 ∧ d.digits % 10 = 0 then dropZeros fuel ⟨d.digits / 10, d.exponent + 1⟩ else d

/-- The shortest decimal that rounds to `x`. -/
def shortest (x : Magnitude) : Decimal :=
  if x.mantissa = 0 then ⟨0, 0⟩
  else
    let d := (List.range 17).findSome? fun n => onGrid? x (n + 1)
    dropZeros 17 (d.getD ⟨x.numerator / x.denominator, 0⟩)

end Decimal

end SyntaxQuery
