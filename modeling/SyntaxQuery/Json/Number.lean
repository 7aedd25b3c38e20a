import SyntaxQuery.Decimal

/-!
# Numbers of a JSON text

An integer without fraction and exponent that fits a word of 64 bits, signed or not, is kept
exactly; every other number is a binary floating-point number, and so is minus zero. A numeral is
read by its leading digits: as many as fit a word of 64 bits make the significand, the digits
after them count only through their places, and the power of ten is applied by `Magnitude.scale`.
-/

namespace SyntaxQuery

namespace Json

/-- A number of a JSON text. -/
inductive Number where
  | integer (n : Int)
  | real (x : Binary64)
deriving DecidableEq, Repr

namespace Number

/-- The digits of `n`, padded with zeros on the left to at least `width`. -/
def padded (width n : Nat) : List Char :=
  let ds := Nat.toDigits 10 n
  List.replicate (width - ds.length) '0' ++ ds

/-- A real is written without exponent from this power of ten on … -/
def leastPlainPower : Int := -5

/-- … up to this one. -/
def greatestPlainPower : Int := 15

/-- `d` with a point and at least one digit on each side of it. -/
def plain (d : Decimal) : String :=
  if 0 ≤ d.exponent then
    String.ofList (Nat.toDigits 10 (d.digits * tens d.exponent.toNat)) ++ ".0"
  else
    let places := (-d.exponent).toNat
    let ds := padded (places + 1) d.digits
    String.ofList (ds.take (ds.length - places)) ++ "." ++
      String.ofList (ds.drop (ds.length - places))

/-- `d` with one digit before the point and a signed exponent. -/
def scientific (d : Decimal) (power : Int) : String :=
  let ds := Nat.toDigits 10 d.digits
  let point := if ds.length = 1 then "" else "."
  let sign := if power < 0 then "-" else "+"
  String.ofList (ds.take 1) ++ point ++ String.ofList (ds.drop 1) ++ "e" ++ sign ++
    toString power.natAbs

/-- The text of a magnitude: its shortest decimal. -/
def magnitudeText (x : Magnitude) : String :=
  let d := Decimal.shortest x
  let power := d.exponent + (Nat.toDigits 10 d.digits).length - 1
  if d.digits = 0 ∨ leastPlainPower ≤ power ∧ power ≤ greatestPlainPower then plain d
  else scientific d power

def realText (x : Binary64) : String :=
  (if x.negative then "-" else "") ++ magnitudeText x.magnitude

def toText : Number → String
  | integer n => toString n
  | real x => realText x

end Number

/-- A numeral of a JSON text, taken apart. -/
structure Numeral where
  negative : Bool
  whole : List Nat
  fraction : List Nat
  exponent : Option (Bool × List Nat)
deriving DecidableEq, Repr

namespace Numeral

/-- The value of an ASCII digit. -/
def digit (c : Char) : Nat := c.toNat - '0'.toNat

/-- The digits at the front, and what follows them. -/
def digits (cs : List Char) : List Nat × List Char :=
  ((cs.takeWhile Char.isDigit).map digit, cs.dropWhile Char.isDigit)

/-- What may follow the digits of a numeral: an exponent, or nothing. -/
def exponent? (negative : Bool) (whole fraction : List Nat) : List Char → Option Numeral
  | [] => some ⟨negative, whole, fraction, none⟩
  | c :: cs =>
    if c = 'e' ∨ c = 'E' then
      let (down, cs) : Bool × List Char :=
        match cs with
        | '-' :: rest => (true, rest)
        | '+' :: rest => (false, rest)
        | rest => (false, rest)
      match digits cs with
      | (d :: ds, []) => some ⟨negative, whole, fraction, some (down, d :: ds)⟩
      | _ => none
    else none

/-- Take a numeral apart: an optional minus sign, digits without a superfluous leading zero, and
optionally a point with digits and an exponent with digits. -/
def read? (cs : List Char) : Option Numeral :=
  let (negative, cs) : Bool × List Char :=
    match cs with
    | '-' :: rest => (true, rest)
    | rest => (false, rest)
  match digits cs with
  | ([], _) => none
  | (0 :: _ :: _, _) => none
  | (whole, '.' :: rest) =>
    match digits rest with
    | ([], _) => none
    | (fraction, rest) => exponent? negative whole fraction rest
  | (whole, rest) => exponent? negative whole [] rest

/-- Leading digits that fit a word, and the power of ten that is left. -/
structure Significand where
  value : Nat
  exponent : Int
deriving DecidableEq, Repr

def maxSignificand : Nat := 18446744073709551615

/-- Continue by the digits before the point: from the first that does not fit on, each counts one
power of ten. -/
def Significand.takeWhole (s : Significand) : List Nat → Significand
  | [] => s
  | d :: ds =>
    if maxSignificand < 10 * s.value + d then ⟨s.value, s.exponent + (d :: ds).length⟩
    else Significand.takeWhole ⟨10 * s.value + d, s.exponent⟩ ds

/-- Continue by the digits after the point: from the first that does not fit on, none counts. -/
def Significand.takeFraction (s : Significand) : List Nat → Significand
  | [] => s
  | d :: ds =>
    if maxSignificand < 10 * s.value + d then s
    else Significand.takeFraction ⟨10 * s.value + d, s.exponent - 1⟩ ds

/-- Exponents past this one are not read on. -/
def maxExponent : Nat := 2147483647

/-- The exponent written by `ds`, unless it is too large to matter. -/
def exponentValue? (ds : List Nat) : Option Nat :=
  ds.foldlM (fun acc d => if maxExponent < 10 * acc + d then none else some (10 * acc + d)) 0

/-- The real `s`, scaled by the written exponent; `none` past the largest real. -/
def realOf (negative : Bool) (s : Significand) (exponent : Option (Bool × List Nat)) :
    Option Binary64 := do
  let m ← match exponent with
    | none => do (← Magnitude.ofNat s.value).scale s.exponent
    | some (down, ds) =>
      match exponentValue? ds with
      | none => if s.value ≠ 0 ∧ down = false then none else some Magnitude.zero
      | some e => do
        (← Magnitude.ofNat s.value).scale (if down then s.exponent - e else s.exponent + e)
  return ⟨negative, m⟩

/-- The number of a numeral; `none` when it is past the largest real. -/
def value? (n : Numeral) : Option Number :=
  let s := Significand.takeWhole ⟨0, 0⟩ n.whole
  if n.fraction = [] ∧ n.exponent = none ∧ s.exponent = 0 then
    if n.negative = false then some (.integer s.value)
    else if s.value ≠ 0 ∧ s.value ≤ 9223372036854775808 then some (.integer (-s.value))
    else (realOf true s none).map .real
  else (realOf n.negative (s.takeFraction n.fraction) n.exponent).map .real

end Numeral

end Json

end SyntaxQuery
