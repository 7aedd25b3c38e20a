import Mathlib.Data.List.Basic
import SyntaxQuery.Json.Lexeme

/-!
# Written numbers are numerals

A `Spelling` is a numeral as the grammar has it: a sign, digits without a superfluous zero in front,
and optionally a fraction and an exponent. Every number is written as one (`exists_spelling`), and
the reader takes every one of them apart again (`Spelling.read?_chars`).
-/

namespace SyntaxQuery.Json

open Lexeme

section Digits

/-- One digit or more. -/
def IsDigits (cs : List Char) : Prop := cs ≠ [] ∧ ∀ c ∈ cs, c.isDigit

theorem isDigits_toDigits (n : Nat) : IsDigits (Nat.toDigits 10 n) :=
  ⟨Nat.toDigits_ne_nil, fun _ hc => Nat.isDigit_of_mem_toDigits (by decide) (by decide) hc⟩

theorem eq_zero_of_head?_toDigits (n : Nat) : (Nat.toDigits 10 n).head? = some '0' → n = 0 := by
  induction n using Nat.strongRecOn with
  | ind n ih =>
    rw [Nat.toDigits_eq_if (by decide)]
    split_ifs with h
    · simp
    · intro hhead
      rw [List.head?_append_of_ne_nil _ Nat.toDigits_ne_nil] at hhead
      have := ih (n / 10) (by omega) hhead
      omega

theorem digit_eq_zero {c : Char} (hc : c.isDigit) : Numeral.digit c = 0 ↔ c = '0' := by
  have hle : 48 ≤ c.toNat := by
    simp only [Char.isDigit, Bool.and_eq_true, decide_eq_true_eq] at hc
    exact hc.1
  constructor
  · intro h
    have hnat : c.toNat = '0'.toNat := by
      simp only [Numeral.digit, show '0'.toNat = 48 from rfl] at h ⊢
      omega
    exact Char.toNat_inj.1 hnat
  · rintro rfl
    rfl

theorem digits_append {ds rest : List Char} (hds : ∀ c ∈ ds, c.isDigit)
    (hrest : ∀ c ∈ rest.head?, c.isDigit = false) :
    Numeral.digits (ds ++ rest) = (ds.map Numeral.digit, rest) := by
  have hnil : rest.takeWhile Char.isDigit = [] ∧ rest.dropWhile Char.isDigit = rest := by
    cases rest with
    | nil => simp
    | cons c rest => simp [hrest c rfl]
  rw [Numeral.digits, List.takeWhile_append_of_pos hds, List.dropWhile_append_of_pos hds, hnil.1,
    hnil.2, List.append_nil]

end Digits

/-- A numeral by its characters. -/
structure Spelling where
  negative : Bool
  whole : List Char
  fraction : List Char
  exponent : Option (Bool × List Char)
  whole_digits : IsDigits whole
  whole_zero : whole.head? = some '0' → whole = ['0']
  fraction_digits : ∀ c ∈ fraction, c.isDigit
  exponent_digits : ∀ e ∈ exponent, IsDigits e.2

namespace Spelling

def exponentChars (s : Spelling) : List Char :=
  match s.exponent with
  | none => []
  | some (down, ds) => 'e' :: (if down then '-' else '+') :: ds

def fractionChars (s : Spelling) : List Char :=
  if s.fraction = [] then [] else '.' :: s.fraction

def chars (s : Spelling) : List Char :=
  (if s.negative then ['-'] else []) ++ (s.whole ++ (s.fractionChars ++ s.exponentChars))

def numeral (s : Spelling) : Numeral :=
  ⟨s.negative, s.whole.map Numeral.digit, s.fraction.map Numeral.digit,
    s.exponent.map fun e => (e.1, e.2.map Numeral.digit)⟩

theorem exponent?_exponentChars (s : Spelling) :
    Numeral.exponent? s.negative (s.whole.map Numeral.digit) (s.fraction.map Numeral.digit)
      s.exponentChars = some s.numeral := by
  unfold exponentChars numeral
  rcases he : s.exponent with _ | ⟨down, ds⟩
  · rfl
  · obtain ⟨hne, hds⟩ := s.exponent_digits (down, ds) he
    obtain ⟨d, ds, rfl⟩ := List.exists_cons_of_ne_nil hne
    have hdigits : Numeral.digits (d :: ds ++ []) = _ := digits_append hds (by simp)
    rw [List.append_nil] at hdigits
    cases down <;> simp [Numeral.exponent?, hdigits]

theorem digits_whole (s : Spelling) :
    Numeral.digits (s.whole ++ (s.fractionChars ++ s.exponentChars))
      = (s.whole.map Numeral.digit, s.fractionChars ++ s.exponentChars) := by
  refine digits_append s.whole_digits.2 ?_
  unfold fractionChars exponentChars
  rcases s.exponent with _ | ⟨down, ds⟩ <;> split_ifs <;> simp

theorem digits_fraction (s : Spelling) :
    Numeral.digits (s.fraction ++ s.exponentChars)
      = (s.fraction.map Numeral.digit, s.exponentChars) := by
  refine digits_append s.fraction_digits ?_
  unfold exponentChars
  rcases s.exponent with _ | ⟨down, ds⟩ <;> simp

theorem read?_signed (negative : Bool) {cs : List Char} (h : cs.head? ≠ some '-') :
    Numeral.read? ((if negative then ['-'] else []) ++ cs)
      = match Numeral.digits cs with
        | ([], _) => none
        | (0 :: _ :: _, _) => none
        | (whole, '.' :: rest) =>
          match Numeral.digits rest with
          | ([], _) => none
          | (fraction, rest) => Numeral.exponent? negative whole fraction rest
        | (whole, rest) => Numeral.exponent? negative whole [] rest := by
  cases negative with
  | true => rfl
  | false =>
    cases cs with
    | nil => rfl
    | cons c cs =>
      have hc : c ≠ '-' := by simpa using h
      rw [if_neg Bool.false_ne_true, List.nil_append]
      unfold Numeral.read?
      split
      rename_i heq
      obtain ⟨rfl, rfl⟩ := Prod.mk.inj (by simpa [hc] using heq)
      rfl

theorem read?_chars (s : Spelling) : Numeral.read? s.chars = some s.numeral := by
  obtain ⟨d, ds, hds⟩ := List.exists_cons_of_ne_nil s.whole_digits.1
  have hd : d.isDigit := s.whole_digits.2 d (by simp [hds])
  have hsign : (s.whole ++ (s.fractionChars ++ s.exponentChars)).head? ≠ some '-' := by
    rw [hds]
    rintro ⟨rfl⟩
    exact absurd hd (by decide)
  rw [chars, read?_signed s.negative hsign, digits_whole]
  split
  · simp_all
  · rename_i heq
    simp only [hds, List.map_cons, Prod.mk.injEq, List.cons.injEq] at heq
    obtain ⟨⟨hzero, hmore⟩, -⟩ := heq
    have hone := s.whole_zero (by rw [hds, (digit_eq_zero hd).1 hzero]; rfl)
    simp_all
  · rename_i rest _ heq
    obtain ⟨rfl, hrest⟩ := Prod.mk.inj heq
    have hfraction : s.fraction ≠ [] := by
      intro hnil
      simp only [fractionChars, hnil, if_true, List.nil_append, exponentChars] at hrest
      split at hrest <;> simp at hrest
    simp only [fractionChars, hfraction, if_false, List.cons_append, List.cons.injEq, true_and]
      at hrest
    rw [← hrest, digits_fraction]
    split
    · simp_all
    · rename_i heq
      obtain ⟨rfl, rfl⟩ := Prod.mk.inj heq
      exact s.exponent?_exponentChars
  · rename_i hpoint heq
    obtain ⟨rfl, rfl⟩ := Prod.mk.inj heq
    have hfraction : s.fraction = [] := by
      by_contra hne
      simp [fractionChars, hne] at hpoint
    have hexponent := s.exponent?_exponentChars
    rw [hfraction] at hexponent
    rw [fractionChars, if_pos hfraction]
    exact hexponent

theorem isNumeric_of_mem_chars (s : Spelling) {c : Char} (hc : c ∈ s.chars) : isNumeric c := by
  have hdigit : c.isDigit → isNumeric c := fun h => by simp [isNumeric, h]
  simp only [chars, List.mem_append] at hc
  rcases hc with hc | hc | hc | hc
  · split_ifs at hc <;> simp_all [isNumeric]
  · exact hdigit (s.whole_digits.2 c hc)
  · unfold fractionChars at hc
    split_ifs at hc
    · simp at hc
    · rcases List.mem_cons.1 hc with rfl | hc
      · decide
      · exact hdigit (s.fraction_digits c hc)
  · unfold exponentChars at hc
    rcases he : s.exponent with _ | ⟨down, ds⟩ <;> simp only [he] at hc
    · simp at hc
    · simp only [List.mem_cons] at hc
      rcases hc with rfl | rfl | hc
      · decide
      · cases down <;> decide
      · exact hdigit ((s.exponent_digits _ he).2 c hc)

theorem exists_cons_chars (s : Spelling) :
    ∃ c cs, s.chars = c :: cs ∧ (c.isDigit ∨ c = '-') := by
  unfold chars
  cases s.negative with
  | true => exact ⟨'-', _, rfl, Or.inr rfl⟩
  | false =>
    obtain ⟨d, ds, hds⟩ := List.exists_cons_of_ne_nil s.whole_digits.1
    exact ⟨d, _, by rw [hds]; rfl, Or.inl (s.whole_digits.2 d (by simp [hds]))⟩

end Spelling

section Numbers

theorem toDigits_zero_of_head? {n : Nat} (h : (Nat.toDigits 10 n).head? = some '0') :
    Nat.toDigits 10 n = ['0'] := by
  rw [eq_zero_of_head?_toDigits n h]
  rfl

/-- How an integer is spelled. -/
def Spelling.ofInteger (n : Int) : Spelling :=
  ⟨decide (n < 0), Nat.toDigits 10 n.natAbs, [], none, isDigits_toDigits _, toDigits_zero_of_head?,
    by simp, by simp⟩

theorem Spelling.chars_ofInteger (n : Int) :
    (ofInteger n).chars = (Number.integer n).toText.toList := by
  simp only [ofInteger, chars, fractionChars, exponentChars, Number.toText, Int.toString_eq_repr,
    Int.repr_eq_if]
  by_cases h : 0 ≤ n
  · have hn : n.natAbs = n.toNat := by omega
    simp [h, hn]
  · have hn : n.natAbs = (-n).toNat := by omega
    have hneg : n < 0 := by omega
    simp [h, hn, hneg]

theorem length_padded (width n : Nat) :
    (Number.padded width n).length = max width (Nat.toDigits 10 n).length := by
  simp only [Number.padded, List.length_append, List.length_replicate]
  omega

theorem isDigit_of_mem_padded {width n : Nat} {c : Char} (hc : c ∈ Number.padded width n) :
    c.isDigit := by
  rcases List.mem_append.1 hc with hc | hc
  · rw [List.eq_of_mem_replicate hc]
    decide
  · exact (isDigits_toDigits n).2 c hc

theorem split_padded {places : Nat} (hplaces : 0 < places) (n : Nat) :
    let ds := Number.padded (places + 1) n
    IsDigits (ds.take (ds.length - places))
      ∧ ((ds.take (ds.length - places)).head? = some '0' → ds.take (ds.length - places) = ['0'])
      ∧ IsDigits (ds.drop (ds.length - places)) := by
  intro ds
  have hlen : ds.length = max (places + 1) (Nat.toDigits 10 n).length := length_padded _ n
  have hdigit : ∀ c ∈ ds, c.isDigit := fun c hc => isDigit_of_mem_padded hc
  refine ⟨⟨?_, fun c hc => hdigit c (List.mem_of_mem_take hc)⟩, fun hhead => ?_,
    ⟨?_, fun c hc => hdigit c (List.mem_of_mem_drop hc)⟩⟩
  · rw [← List.length_pos_iff, List.length_take]
    omega
  · by_cases hshort : (Nat.toDigits 10 n).length ≤ places
    · -- The zeros in front fill the place before the point.
      have hone : ds.length - places = 0 + 1 := by omega
      obtain ⟨k, hk⟩ : ∃ k, places + 1 - (Nat.toDigits 10 n).length = k + 1 :=
        ⟨places - (Nat.toDigits 10 n).length, by omega⟩
      rw [hone]
      simp [ds, Number.padded, hk, List.replicate_succ]
    · have hzeros : places + 1 - (Nat.toDigits 10 n).length = 0 := by omega
      have hds : ds = Nat.toDigits 10 n := by simp [ds, Number.padded, hzeros]
      rw [List.head?_take, if_neg (by omega), hds] at hhead
      have := congrArg List.length (toDigits_zero_of_head? hhead)
      simp only [List.length_singleton] at this
      omega
  · rw [← List.length_pos_iff, List.length_drop]
    omega

/-- What is written with a point is a whole number, the point and a fraction. -/
theorem exists_plain (d : Decimal) :
    ∃ whole fraction, (Number.plain d).toList = whole ++ '.' :: fraction ∧ IsDigits whole
      ∧ (whole.head? = some '0' → whole = ['0']) ∧ IsDigits fraction := by
  unfold Number.plain
  by_cases h : 0 ≤ d.exponent
  · refine ⟨Nat.toDigits 10 (d.digits * tens d.exponent.toNat), ['0'], ?_, isDigits_toDigits _,
      toDigits_zero_of_head?, by simp, by simp⟩
    simp [h]
  · obtain ⟨hwhole, hzero, hfraction⟩ := split_padded (show 0 < (-d.exponent).toNat by omega)
      d.digits
    exact ⟨_, _, by simp [h], hwhole, hzero, hfraction⟩

theorem exists_spelling_plain (negative : Bool) (d : Decimal) :
    ∃ s : Spelling,
      s.chars = (if negative then ['-'] else []) ++ (Number.plain d).toList := by
  obtain ⟨whole, fraction, htext, hwhole, hzero, hfraction⟩ := exists_plain d
  refine ⟨⟨negative, whole, fraction, none, hwhole, hzero, hfraction.2, by simp⟩, ?_⟩
  simp [Spelling.chars, Spelling.fractionChars, Spelling.exponentChars, hfraction.1, htext]

theorem exists_spelling_scientific (negative : Bool) (d : Decimal) (power : Int) :
    ∃ s : Spelling,
      s.chars = (if negative then ['-'] else []) ++ (Number.scientific d power).toList := by
  obtain ⟨c, cs, hcs⟩ := List.exists_cons_of_ne_nil (isDigits_toDigits d.digits).1
  have hdigit := (isDigits_toDigits d.digits).2
  rw [hcs] at hdigit
  refine ⟨⟨negative, [c], cs, some (decide (power < 0), Nat.toDigits 10 power.natAbs),
    ⟨by simp, fun e he => hdigit e ?_⟩, by simp, fun e he => hdigit e (List.mem_cons_of_mem _ he),
    ?_⟩, ?_⟩
  · rw [List.mem_singleton.1 he]
    exact List.mem_cons_self
  · rintro e ⟨rfl⟩
    exact isDigits_toDigits _
  · simp only [Spelling.chars, Spelling.fractionChars, Spelling.exponentChars, Number.scientific,
      hcs]
    by_cases hnil : cs = [] <;> by_cases hpower : power < 0 <;> simp [hnil, hpower]

theorem magnitudeText_cases (x : Magnitude) :
    Number.magnitudeText x = Number.plain (Decimal.shortest x)
      ∨ ∃ power, Number.magnitudeText x = Number.scientific (Decimal.shortest x) power := by
  simp only [Number.magnitudeText]
  split_ifs
  · exact Or.inl rfl
  · exact Or.inr ⟨_, rfl⟩

theorem exists_spelling (n : Number) : ∃ s : Spelling, s.chars = n.toText.toList := by
  cases n with
  | integer n => exact ⟨.ofInteger n, Spelling.chars_ofInteger n⟩
  | real x =>
    have hsign : (Number.real x).toText.toList
        = (if x.negative then ['-'] else []) ++ (Number.magnitudeText x.magnitude).toList := by
      rw [Number.toText, Number.realText, String.toList_append]
      split_ifs <;> rfl
    rw [hsign]
    rcases magnitudeText_cases x.magnitude with htext | ⟨power, htext⟩ <;> rw [htext]
    · exact exists_spelling_plain x.negative _
    · exact exists_spelling_scientific x.negative _ power

end Numbers

end SyntaxQuery.Json
