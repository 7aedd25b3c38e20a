/-!
# Finite binary floating-point numbers

A number of the 64-bit binary format is a sign and a magnitude `mantissa * 2 ^ exponent`. All
arithmetic here is exact on natural numbers and rounds once, to the nearest number of the format
and to the even mantissa when two are equally near; `none` stands for a result past the largest
number of the format.
-/

namespace SyntaxQuery

/-- A power of two. -/
def twos (n : Nat) : Nat := Nat.pow 2 n

/-- A power of ten. -/
def tens (n : Nat) : Nat := Nat.pow 10 n

/-- A finite magnitude, `mantissa * 2 ^ exponent`. -/
structure Magnitude where
  mantissa : Nat
  exponent : Int
deriving DecidableEq, Repr

/-- A finite number of the format; zero keeps its sign. -/
structure Binary64 where
  negative : Bool
  magnitude : Magnitude
deriving DecidableEq, Repr

namespace Magnitude

/-- The least exponent of the format. -/
def minExponent : Int := -1074

/-- The largest exponent of the format. -/
def maxExponent : Int := 971

/-- The least mantissa of 53 bits. -/
def minMantissa : Nat := 4503599627370496

def zero : Magnitude := ⟨0, minExponent⟩

/-- The magnitude is `numerator / denominator`. -/
def numerator (x : Magnitude) : Nat := x.mantissa * twos x.exponent.toNat

def denominator (x : Magnitude) : Nat := twos (-x.exponent).toNat

/-- `num / den` to the nearest natural number, a tie to the even one. -/
def roundDiv (num den : Nat) : Nat :=
  let q := num / den
  let r := num % den
  if 2 * r < den then q
  else if den < 2 * r then q + 1
  else if q % 2 = 0 then q else q + 1

/-- `num / den` counted in units of `2 ^ e`, rounded. -/
def roundAt (num den : Nat) (e : Int) : Nat :=
  roundDiv (num * twos (-e).toNat) (den * twos e.toNat)

/-- The exponent at which the mantissa of `num / den` has 53 bits, or the least exponent. -/
def exponentOf (num den : Nat) : Int :=
  let e : Int := (num.log2 : Int) - den.log2 - 52
  let e := if num * twos (-e).toNat < minMantissa * (den * twos e.toNat) then e - 1 else e
  max e minExponent

/-- The magnitude nearest to `num / den`. -/
def ofRatio (num den : Nat) : Option Magnitude :=
  if num = 0 then some zero
  else
    let e := exponentOf num den
    let m := roundAt num den e
    let (m, e) := if m = 2 * minMantissa then (minMantissa, e + 1) else (m, e)
    if maxExponent < e then none else some ⟨m, e⟩

def ofNat (n : Nat) : Option Magnitude := ofRatio n 1

/-- The magnitude nearest to `x * 10 ^ k`, when `10 ^ k` is itself rounded first. -/
def timesPowTen (x : Magnitude) (k : Nat) : Option Magnitude := do
  let p ← ofNat (tens k)
  ofRatio (x.numerator * p.numerator) (x.denominator * p.denominator)

/-- The magnitude nearest to `x / 10 ^ k`, when `10 ^ k` is itself rounded first. -/
def overPowTen (x : Magnitude) (k : Nat) : Option Magnitude := do
  let p ← ofNat (tens k)
  ofRatio (x.numerator * p.denominator) (x.denominator * p.numerator)

/-- The largest power of ten that has a magnitude. -/
def maxPowTen : Nat := 308

/-- `x * 10 ^ e`, rounded after each step: one multiplication, or divisions by at most
`10 ^ maxPowTen` until the power is used up or nothing is left. -/
def scale (x : Magnitude) (e : Int) : Option Magnitude :=
  if e.natAbs ≤ maxPowTen then
    if 0 ≤ e then x.timesPowTen e.toNat else x.overPowTen (-e).toNat
  else if x.mantissa = 0 then some x
  else if 0 ≤ e then none
  else do
    let y ← x.overPowTen maxPowTen
    y.scale (e + maxPowTen)
termination_by e.natAbs
decreasing_by simp only [maxPowTen] at *; omega

end Magnitude

end SyntaxQuery
