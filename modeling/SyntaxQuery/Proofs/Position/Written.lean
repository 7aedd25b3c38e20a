import Mathlib.Data.List.TakeDrop
import Mathlib.Data.List.TakeWhile
import SyntaxQuery.Position

/-!
# Positions as text

A position is read from every text of one form and from no other: two numerals with a colon between
them, and any blanks around each (`Written`). A numeral is one digit or more after at most one plus
sign (`Numeral.Spells`), and the reader, which watches the limit digit by digit, takes one exactly
when its value keeps to the limit (`Numeral.read_eq_ok_iff`): a number never gets smaller by the
digits that follow. Trimming finds the one part between blanks that neither begins nor ends with one
(`trim_eq_iff`).
-/

namespace SyntaxQuery

namespace Text

namespace Numeral

/-- One digit or more after at most one plus sign, with the value `n`. -/
def Spells (cs : List Char) (n : Nat) : Prop :=
  ∃ sign ds, cs = sign ++ ds ∧ (sign = [] ∨ sign = ['+']) ∧ ds ≠ [] ∧ (∀ c ∈ ds, c.isDigit)
    ∧ Nat.ofDigitChars 10 ds 0 = n

theorem digit?_of_isDigit {c : Char} (h : c.isDigit) : digit? c = some (c.toNat - '0'.toNat) := by
  simp only [Char.isDigit, Bool.and_eq_true, decide_eq_true_eq] at h
  exact if_pos ⟨h.1, h.2⟩

theorem digit?_of_not_isDigit {c : Char} (h : ¬ c.isDigit) : digit? c = none := by
  simp only [Char.isDigit, Bool.and_eq_true, decide_eq_true_eq] at h
  exact if_neg h

theorem le_ofDigitChars : ∀ (cs : List Char) (acc : Nat), acc ≤ Nat.ofDigitChars 10 cs acc
  | [], _ => by simp
  | c :: cs, acc => by
    have := le_ofDigitChars cs (10 * acc + (c.toNat - '0'.toNat))
    rw [Nat.ofDigitChars_cons]
    omega

theorem readDigits_eq_ok_iff {limit n : Nat} : ∀ {acc : Nat} {cs : List Char}, acc ≤ limit →
    (readDigits limit acc cs = .ok n
      ↔ (∀ c ∈ cs, c.isDigit) ∧ Nat.ofDigitChars 10 cs acc = n ∧ n ≤ limit)
  | acc, [], hacc => by
    simp only [readDigits, Except.ok.injEq, List.not_mem_nil, false_implies, implies_true,
      Nat.ofDigitChars_nil, true_and]
    omega
  | acc, c :: cs, hacc => by
    rw [readDigits, List.forall_mem_cons, Nat.ofDigitChars_cons]
    by_cases hc : c.isDigit
    · simp only [digit?_of_isDigit hc]
      split_ifs with hlimit
      · -- What is too large here stays so whatever follows.
        have := le_ofDigitChars cs (10 * acc + (c.toNat - '0'.toNat))
        simp only [false_iff, not_and]
        omega
      · rw [readDigits_eq_ok_iff (by omega)]
        simp [hc]
    · simp [digit?_of_not_isDigit hc, hc]

theorem spells_plus {cs : List Char} {n : Nat} :
    Spells ('+' :: cs) n ↔ cs ≠ [] ∧ (∀ c ∈ cs, c.isDigit) ∧ Nat.ofDigitChars 10 cs 0 = n := by
  constructor
  · rintro ⟨sign, ds, hcs, rfl | rfl, hne, hds, hn⟩
    · subst hcs
      exact absurd (hds '+' List.mem_cons_self) (by decide)
    · obtain rfl : cs = ds := by simpa using hcs
      exact ⟨hne, hds, hn⟩
  · rintro ⟨hne, hds, hn⟩
    exact ⟨['+'], cs, rfl, Or.inr rfl, hne, hds, hn⟩

theorem spells_cons {c : Char} {cs : List Char} {n : Nat} (hc : c ≠ '+') :
    Spells (c :: cs) n ↔ (∀ d ∈ c :: cs, d.isDigit) ∧ Nat.ofDigitChars 10 (c :: cs) 0 = n := by
  constructor
  · rintro ⟨sign, ds, hcs, rfl | rfl, -, hds, hn⟩
    · rw [hcs]
      exact ⟨hds, hn⟩
    · exact absurd (List.cons.inj hcs).1 hc
  · rintro ⟨hds, hn⟩
    exact ⟨[], c :: cs, rfl, Or.inl rfl, by simp, hds, hn⟩

theorem read_cons {limit : Nat} {c : Char} {cs : List Char} (hc : c ≠ '+') :
    read limit (c :: cs) = readDigits limit 0 (c :: cs) := by
  unfold read
  split <;> simp_all

/-- A numeral is read when it keeps to the limit, and nothing else is. -/
theorem read_eq_ok_iff {limit n : Nat} {cs : List Char} :
    read limit cs = .ok n ↔ Spells cs n ∧ n ≤ limit := by
  rcases cs with _ | ⟨c, cs⟩
  · simp [read, Spells]
  · by_cases hc : c = '+'
    · subst hc
      rcases cs with _ | ⟨c, cs⟩
      · simp [read, spells_plus]
      · rw [read, readDigits_eq_ok_iff (Nat.zero_le limit), spells_plus]
        simp [and_assoc]
    · rw [read_cons hc, readDigits_eq_ok_iff (Nat.zero_le limit), spells_cons hc, and_assoc]

theorem spells_toDigits (n : Nat) : Spells (Nat.toDigits 10 n) n :=
  ⟨[], _, rfl, Or.inl rfl, Nat.toDigits_ne_nil,
    fun _ hc => Nat.isDigit_of_mem_toDigits (by decide) (by decide) hc,
    Nat.ofDigitChars_toDigits (by decide) (by decide)⟩

/-- What stands in a numeral is a digit or the sign. -/
theorem Spells.mem {cs : List Char} {n : Nat} (h : Spells cs n) {c : Char} (hc : c ∈ cs) :
    c.isDigit ∨ c = '+' := by
  obtain ⟨sign, ds, rfl, hsign, -, hds, -⟩ := h
  rcases List.mem_append.1 hc with hc | hc
  · rcases hsign with rfl | rfl
    · simp at hc
    · exact Or.inr (List.mem_singleton.1 hc)
  · exact Or.inl (hds c hc)

end Numeral

section Blanks

/-- Blanks around `core`, which itself neither begins nor ends with one. -/
def Trimmed (cs core : List Char) : Prop :=
  ∃ left right, cs = left ++ core ++ right ∧ (∀ c ∈ left, isBlank c) ∧ (∀ c ∈ right, isBlank c)
    ∧ (∀ c ∈ core.head?, ¬ isBlank c) ∧ ∀ c ∈ core.getLast?, ¬ isBlank c

theorem dropWhile_of_head? {cs : List Char} (h : ∀ c ∈ cs.head?, ¬ isBlank c) :
    cs.dropWhile isBlank = cs := by
  rcases cs with _ | ⟨c, cs⟩
  · rfl
  · simp [h c rfl]

theorem trimEnd_append {cs right : List Char} (hright : ∀ c ∈ right, isBlank c) :
    trimEnd (cs ++ right) = trimEnd cs := by
  rw [trimEnd, List.reverse_append, List.dropWhile_append_of_pos (by simpa using hright)]
  rfl

theorem trimEnd_of_getLast? {cs : List Char} (h : ∀ c ∈ cs.getLast?, ¬ isBlank c) :
    trimEnd cs = cs := by
  rw [trimEnd, dropWhile_of_head? (by simpa using h), List.reverse_reverse]

theorem exists_dropWhile (cs : List Char) :
    ∃ left, cs = left ++ cs.dropWhile isBlank ∧ (∀ c ∈ left, isBlank c)
      ∧ ∀ c ∈ (cs.dropWhile isBlank).head?, ¬ isBlank c := by
  refine ⟨cs.takeWhile isBlank, List.takeWhile_append_dropWhile.symm,
    List.all_eq_true.1 List.all_takeWhile, fun c hc => ?_⟩
  have := List.head?_dropWhile_not isBlank cs
  rw [hc] at this
  simpa using this

theorem exists_trimEnd (cs : List Char) :
    ∃ right, cs = trimEnd cs ++ right ∧ (∀ c ∈ right, isBlank c)
      ∧ ∀ c ∈ (trimEnd cs).getLast?, ¬ isBlank c := by
  obtain ⟨right, hcs, hright, hhead⟩ := exists_dropWhile cs.reverse
  refine ⟨right.reverse, ?_, by simpa using hright, by simpa [trimEnd] using hhead⟩
  rw [trimEnd, ← List.reverse_append, ← hcs, List.reverse_reverse]

theorem trimmed_trim (cs : List Char) : Trimmed cs (trim cs) := by
  obtain ⟨left, hcs, hleft, hhead⟩ := exists_dropWhile cs
  obtain ⟨right, hrest, hright, hlast⟩ := exists_trimEnd (cs.dropWhile isBlank)
  refine ⟨left, right, ?_, hleft, hright, fun c hc => ?_, hlast⟩
  · rw [List.append_assoc, trim, ← hrest, ← hcs]
  · refine hhead c ?_
    rw [hrest, List.head?_append, show (trimEnd (cs.dropWhile isBlank)).head? = some c from hc]
    rfl

/-- Trimming leaves the one part between blanks that has none at its ends. -/
theorem trim_eq_iff {cs core : List Char} : trim cs = core ↔ Trimmed cs core := by
  constructor
  · rintro rfl
    exact trimmed_trim cs
  · rintro ⟨left, right, rfl, hleft, hright, hhead, hlast⟩
    rw [trim, List.append_assoc, List.dropWhile_append_of_pos hleft]
    rcases core with _ | ⟨c, core⟩
    · rw [List.nil_append, List.dropWhile_eq_nil_iff.2 hright]
      rfl
    · rw [dropWhile_of_head? (by simpa using hhead), trimEnd_append hright,
        trimEnd_of_getLast? hlast]

end Blanks

section Parts

variable {c : Char} {a : List Char}

theorem span_append_cons (h : c ∉ a) (b : List Char) :
    (a ++ c :: b).span (· ≠ c) = (a, c :: b) := by
  have hall : ∀ d ∈ a, decide (d ≠ c) = true := fun d hd => by
    simpa using ne_of_mem_of_not_mem hd h
  rw [List.span_eq_takeWhile_dropWhile, List.takeWhile_append_of_pos hall,
    List.dropWhile_append_of_pos hall]
  simp

theorem span_of_not_mem (h : c ∉ a) : a.span (· ≠ c) = (a, []) := by
  have hall : ∀ d ∈ a, decide (d ≠ c) = true := fun d hd => by
    simpa using ne_of_mem_of_not_mem hd h
  rw [List.span_eq_takeWhile_dropWhile, List.takeWhile_eq_self_iff.2 hall,
    List.dropWhile_eq_nil_iff.2 hall]

end Parts

end Text

namespace Position

open Text

/-- The numbers `m` and `n` with a colon between them, the first of the text, and blanks around
each. -/
def Written (text : String) (m n : Nat) : Prop :=
  ∃ row column row' column', text.toList = row ++ ':' :: column ∧ ':' ∉ row
    ∧ Trimmed row row' ∧ Numeral.Spells row' m ∧ Trimmed column column' ∧ Numeral.Spells column' n

theorem readPart_eq_ok_iff {part : List Char} {k : UInt32} :
    readPart part = .ok k ↔ ∃ core, Trimmed part core ∧ Numeral.Spells core k.toNat := by
  have hread : readPart part = .ok k ↔ Numeral.read maxWord32 (trim part) = .ok k.toNat := by
    unfold readPart
    rcases hn : Numeral.read maxWord32 (trim part) with e | n
    · simp
    · have hle := (Numeral.read_eq_ok_iff.1 hn).2
      simp only [Except.ok.injEq, ← UInt32.toNat_inj, UInt32.toNat_ofNat']
      unfold maxWord32 at hle
      omega
  rw [hread, Numeral.read_eq_ok_iff]
  constructor
  · rintro ⟨h, -⟩
    exact ⟨_, trimmed_trim part, h⟩
  · rintro ⟨core, htrim, h⟩
    rw [trim_eq_iff.2 htrim]
    exact ⟨h, toNat_le_maxWord32 k⟩

theorem read_of_colon {text : String} {row column : List Char}
    (htext : text.toList = row ++ ':' :: column) (hrow : ':' ∉ row) :
    read text = (do return ⟨← readPart row, ← readPart column⟩) := by
  rw [read, htext, span_append_cons hrow]

theorem read_of_no_colon {text : String} (h : ':' ∉ text.toList) :
    read text = .error (.noColon text) := by
  rw [read, span_of_not_mem h]

theorem read_eq_ok_iff {text : String} {p : Position} :
    read text = .ok p ↔ Written text p.row.toNat p.column.toNat := by
  constructor
  · intro h
    by_cases hcolon : ':' ∈ text.toList
    · obtain ⟨row, column, htext, hrow⟩ := List.eq_append_cons_of_mem hcolon
      rw [read_of_colon htext hrow] at h
      rcases hm : readPart row with e | m
      · simp [hm, bind, Except.bind] at h
      rcases hn : readPart column with e | n
      · simp [hm, hn, bind, Except.bind] at h
      simp only [hm, hn, bind, Except.bind, pure, Except.pure, Except.ok.injEq] at h
      subst h
      obtain ⟨row', hrow', hm⟩ := readPart_eq_ok_iff.1 hm
      obtain ⟨column', hcolumn', hn⟩ := readPart_eq_ok_iff.1 hn
      exact ⟨row, column, row', column', htext, hrow, hrow', hm, hcolumn', hn⟩
    · rw [read_of_no_colon hcolon] at h
      simp at h
  · rintro ⟨row, column, row', column', htext, hrow, hrow', hm, hcolumn', hn⟩
    rw [read_of_colon htext hrow, readPart_eq_ok_iff.2 ⟨row', hrow', hm⟩,
      readPart_eq_ok_iff.2 ⟨column', hcolumn', hn⟩]
    rfl

theorem not_isBlank_of_isDigit {c : Char} (h : c.isDigit) : ¬ isBlank c := by
  have hc : 48 ≤ c.toNat ∧ c.toNat ≤ 57 := by
    simp only [Char.isDigit, Bool.and_eq_true, decide_eq_true_eq] at h
    exact h
  rw [isBlank, Ranges.has_iff]
  rintro ⟨r, hr, hle, hge⟩
  simp only [blankRanges, List.mem_cons, List.not_mem_nil, or_false] at hr
  rcases hr with rfl | rfl | rfl | rfl | rfl | rfl | rfl | rfl | rfl | rfl <;>
    simp only [] at hle hge <;> omega

theorem trimmed_of_spells {cs : List Char} {n : Nat} (h : Numeral.Spells cs n) :
    Trimmed cs cs := by
  have hblank : ∀ c ∈ cs, ¬ isBlank c := by
    intro c hc
    rcases h.mem hc with hdigit | rfl
    · exact not_isBlank_of_isDigit hdigit
    · decide
  exact ⟨[], [], by simp, by simp, by simp, fun c hc => hblank c (List.mem_of_mem_head? hc),
    fun c hc => hblank c (List.mem_of_mem_getLast? hc)⟩

theorem read_toText (p : Position) : read p.toText = .ok p := by
  have hrow := Numeral.spells_toDigits p.row.toNat
  have hcolumn := Numeral.spells_toDigits p.column.toNat
  have hcolon : ':' ∉ Nat.toDigits 10 p.row.toNat := by
    intro h
    rcases hrow.mem h with h | h <;> revert h <;> decide
  refine read_eq_ok_iff.2 ⟨_, _, _, _, ?_, hcolon, trimmed_of_spells hrow, hrow,
    trimmed_of_spells hcolumn, hcolumn⟩
  simp [toText]

/-- A text is read exactly when it is two numerals of 32 bits with a colon between them, blanks
aside, and a position is read back from its own text. -/
theorem read_accepts_written :
    (∀ text, (∃ p, read text = .ok p) ↔ ∃ m < 4294967296, ∃ n < 4294967296, Written text m n)
      ∧ (∀ text p, read text = .ok p ↔ Written text p.row.toNat p.column.toNat)
      ∧ ∀ p : Position, read p.toText = .ok p := by
  refine ⟨fun text => ⟨?_, ?_⟩, fun text p => read_eq_ok_iff, read_toText⟩
  · rintro ⟨p, hp⟩
    exact ⟨_, p.row.toNat_lt, _, p.column.toNat_lt, read_eq_ok_iff.1 hp⟩
  · rintro ⟨m, hm, n, hn, h⟩
    refine ⟨⟨UInt32.ofNat m, UInt32.ofNat n⟩, read_eq_ok_iff.2 ?_⟩
    rwa [UInt32.toNat_ofNat_of_lt' hm, UInt32.toNat_ofNat_of_lt' hn]

example : read "\u2003+007:\u00a03 " = .ok ⟨7, 3⟩ ∧ (read "4294967296:1").toBool = false
    ∧ (read "1:2:3").toBool = false := by decide

end Position

end SyntaxQuery
