import SyntaxQuery.Json.Writer
import SyntaxQuery.Proofs.Json.Octets

/-!
# Written texts are read back

A character is written by a letter after a backslash, by its number, or as it is
(`writtenChar_cases`). Whichever it is, its octets stay inside the quoted text and stand for the
same character, so a written text is one lexeme, which stands for the text (`scan?_writtenText`).
-/

namespace SyntaxQuery.Json

open Lexeme TextUnit

section Characters

theorem written_control : ∀ n < 0x20,
    (if n < 0x10 then "\\u000" ++ Text.hex n else "\\u00" ++ Text.hex n).toList
        = ['\\', 'u', '0', '0', Nat.digitChar (n / 16), Nat.digitChar (n % 16)]
      ∧ hexDigit? (Nat.digitChar (n / 16)) = some (n / 16)
      ∧ hexDigit? (Nat.digitChar (n % 16)) = some (n % 16) := by
  decide

theorem bounds_of_hexDigit? {c : Char} {n : Nat} (h : hexDigit? c = some n) :
    0x30 ≤ c.toNat ∧ c.toNat < 0x80 ∧ c ≠ '"' ∧ c ≠ '\\' := by
  have hbounds : 0x30 ≤ c.toNat ∧ c.toNat < 0x80 := by
    unfold hexDigit? at h
    simp only [Char.le_def, UInt32.le_iff_toNat_le] at h
    split_ifs at h with h1 h2 h3
    · exact ⟨h1.1, Nat.lt_of_le_of_lt h1.2 (by decide)⟩
    · exact ⟨Nat.le_trans (by decide) h2.1, Nat.lt_of_le_of_lt h2.2 (by decide)⟩
    · exact ⟨Nat.le_trans (by decide) h3.1, Nat.lt_of_le_of_lt h3.2 (by decide)⟩
  refine ⟨hbounds.1, hbounds.2, ?_, ?_⟩
  all_goals
    rintro rfl
    have h : none = some n := h
    simp at h

/-- A character is written by a letter after a backslash, by its number, or as it is. -/
theorem writtenChar_cases (c : Char) :
    (∃ e, (writtenChar c).toList = ['\\', e] ∧ escaped? e = some c ∧ e ≠ 'u' ∧ 0x20 ≤ e.toNat
        ∧ e.toNat < 0x80 ∧ c.toNat < 0x80)
    ∨ (∃ a b, (writtenChar c).toList = ['\\', 'u', '0', '0', a, b] ∧ c.toNat < 0x20
        ∧ hexDigit? a = some (c.toNat / 16) ∧ hexDigit? b = some (c.toNat % 16))
    ∨ (writtenChar c).toList = [c] ∧ c ≠ '"' ∧ c ≠ '\\' ∧ 0x20 ≤ c.toNat := by
  by_cases hshort : c = '"' ∨ c = '\\' ∨ c = '\x08' ∨ c = '\x0c' ∨ c = '\n' ∨ c = '\r' ∨ c = '\t'
  · left
    rcases hshort with rfl | rfl | rfl | rfl | rfl | rfl | rfl
    · exact ⟨'"', rfl, by decide⟩
    · exact ⟨'\\', rfl, by decide⟩
    · exact ⟨'b', rfl, by decide⟩
    · exact ⟨'f', rfl, by decide⟩
    · exact ⟨'n', rfl, by decide⟩
    · exact ⟨'r', rfl, by decide⟩
    · exact ⟨'t', rfl, by decide⟩
  · simp only [not_or] at hshort
    obtain ⟨h1, h2, h3, h4, h5, h6, h7⟩ := hshort
    right
    rw [writtenChar, if_neg h1, if_neg h2, if_neg h3, if_neg h4, if_neg h5, if_neg h6, if_neg h7]
    by_cases h : c.toNat < 0x20
    · obtain ⟨htext, ha, hb⟩ := written_control c.toNat h
      refine Or.inl ⟨_, _, ?_, h, ha, hb⟩
      rw [if_pos h]
      exact htext
    · rw [if_neg (by omega), if_neg h]
      exact Or.inr ⟨by simp, h1, h2, by omega⟩

theorem octetsOf_writtenChar_ascii {a b : Char} {m n : Nat} (ha : hexDigit? a = some m)
    (hb : hexDigit? b = some n) :
    octetsOf ['\\', 'u', '0', '0', a, b] = ['\\', 'u', '0', '0', a, b] := by
  refine octetsOf_of_ascii ?_
  simp [(bounds_of_hexDigit? ha).2.1, (bounds_of_hexDigit? hb).2.1]

/-- No octet of a character that is written as it is ends a quoted text or escapes another. -/
theorem octet_of_plain {c o : Char} (hquote : c ≠ '"') (hback : c ≠ '\\') (hc : 0x20 ≤ c.toNat)
    (ho : o ∈ octetsOf [c]) : o ≠ '"' ∧ o ≠ '\\' ∧ 0x20 ≤ o.toNat := by
  by_cases hascii : c.toNat < 0x80
  · rw [octetsOf_of_ascii (by simpa using hascii), List.mem_singleton] at ho
    subst ho
    exact ⟨hquote, hback, hc⟩
  · have hle := le_of_mem_octetsOf (Nat.not_lt.1 hascii) ho
    refine ⟨?_, ?_, by omega⟩ <;> rintro rfl <;> revert hle <;> decide

end Characters

section Units

theorem split?_plain {c : Char} (hback : c ≠ '\\') (hc : 0x20 ≤ c.toNat) (rest : List Char) :
    split? (c :: rest) = (split? rest).map (.octet c :: ·) := by
  rw [split?.eq_def]
  split
  · simp_all
  · simp_all
  · simp_all
  · rename_i h
    obtain ⟨rfl, rfl⟩ := List.cons.inj h
    rw [if_neg (by simp [hback]; omega)]
    cases split? rest <;> rfl

theorem split?_escape {e c : Char} (he : escaped? e = some c) (hu : e ≠ 'u') (rest : List Char) :
    split? ('\\' :: e :: rest) = (split? rest).map (.octet c :: ·) := by
  rw [split?.eq_def]
  split
  · simp_all
  · simp_all
  · rename_i h
    simp only [List.cons.injEq, true_and] at h
    obtain ⟨rfl, rfl⟩ := h
    rw [he]
    cases split? rest <;> rfl
  · rename_i hnot heq
    obtain ⟨rfl, rfl⟩ := List.cons.inj heq
    exact absurd rfl (hnot e rest rfl)

theorem split?_code {a b : Char} {m n : Nat} (ha : hexDigit? a = some m)
    (hb : hexDigit? b = some n) (rest : List Char) :
    split? ('\\' :: 'u' :: '0' :: '0' :: a :: b :: rest)
      = (split? rest).map (.code (m * 16 + n) :: ·) := by
  have hzero : hexDigit? '0' = some 0 := by decide
  rw [split?.eq_def]
  simp only [hzero, ha, hb]
  cases split? rest <;> simp

theorem split?_octets {os : List Char} (h : ∀ o ∈ os, o ≠ '\\' ∧ 0x20 ≤ o.toNat)
    (rest : List Char) :
    split? (os ++ rest) = (split? rest).map (os.map .octet ++ ·) := by
  induction os with
  | nil => simp
  | cons o os ih =>
    obtain ⟨hback, hle⟩ := h o List.mem_cons_self
    rw [List.cons_append, split?_plain hback hle, ih fun d hd => h d (List.mem_cons_of_mem _ hd)]
    cases split? rest <;> rfl

theorem octets?_octets (os : List Char) (more : List TextUnit) :
    octets? (os.map .octet ++ more) = (octets? more).map (os.map (·.toNat.toUInt8) ++ ·) := by
  induction os with
  | nil => simp
  | cons o os ih =>
    rw [List.map_cons, List.cons_append, octets?, ih]
    cases octets? more <;> rfl

theorem octets?_code {n : Nat} (h : n < 0xd800) (more : List TextUnit) :
    octets? (.code n :: more) = (octets? more).map (encode n ++ ·) := by
  have hlead : isLeading n = false := by simp [isLeading]; omega
  have htrail : isTrailing n = false := by simp [isTrailing]; omega
  rcases more with _ | ⟨_ | low, more⟩ <;> simp [octets?, hlead, htrail]

theorem exists_units_writtenChar (c : Char) :
    ∃ us, (∀ rest, split? (octetsOf (writtenChar c).toList ++ rest) = (split? rest).map (us ++ ·))
      ∧ ∀ more, octets? (us ++ more) = (octets? more).map (String.utf8EncodeChar c ++ ·) := by
  rcases writtenChar_cases c with
    ⟨e, htext, he, hu, -, hascii, hc⟩ | ⟨a, b, htext, hc, ha, hb⟩ | ⟨htext, hquote, hback, hc⟩
  · refine ⟨[.octet c], fun rest => ?_, fun more => ?_⟩
    · rw [htext, octetsOf_of_ascii (by simpa using hascii)]
      exact split?_escape he hu rest
    · rw [utf8EncodeChar_of_ascii hc]
      exact octets?_octets [c] more
  · refine ⟨[.code c.toNat], fun rest => ?_, fun more => ?_⟩
    · rw [htext, octetsOf_writtenChar_ascii ha hb]
      refine (split?_code ha hb rest).trans ?_
      rw [Nat.div_add_mod']
      rfl
    · rw [List.singleton_append, octets?_code (by omega), encode, Char.ofNat_toNat]
  · have hoctets : ∀ o ∈ octetsOf [c], o ≠ '\\' ∧ 0x20 ≤ o.toNat :=
      fun o ho => (octet_of_plain hquote hback hc ho).2
    refine ⟨(octetsOf [c]).map .octet, fun rest => ?_, fun more => ?_⟩
    · rw [htext, split?_octets hoctets]
    · rw [octets?_octets, map_octetsOf, List.flatMap_singleton]

theorem exists_units_written (cs : List Char) :
    ∃ us, split? (octetsOf (cs.flatMap fun c => (writtenChar c).toList)) = some us
      ∧ octets? us = some (cs.flatMap String.utf8EncodeChar) := by
  induction cs with
  | nil => exact ⟨[], rfl, rfl⟩
  | cons c cs ih =>
    obtain ⟨us, hsplit, hoctets⟩ := ih
    obtain ⟨vs, hc, hc'⟩ := exists_units_writtenChar c
    refine ⟨vs ++ us, ?_, ?_⟩
    · rw [List.flatMap_cons, octetsOf_append, hc, hsplit]
      rfl
    · rw [List.flatMap_cons, hc', hoctets]
      rfl

theorem quoted?_written (s : String) :
    quoted? (octetsOf (s.toList.flatMap fun c => (writtenChar c).toList))
      = some (.text (some s)) := by
  obtain ⟨us, hsplit, hoctets⟩ := exists_units_written s.toList
  have hdecode : decode? us = some s := by
    simp only [decode?, hoctets, Option.bind_eq_bind, Option.bind_some, fromUTF8?_flatMap,
      String.ofList_toList]
  rw [quoted?, hsplit, Option.map_some, hdecode]

end Units

section Scan

theorem scan?_stay {mode : List Char → Mode} {cs : List Char}
    (h : ∀ read, ∀ c ∈ cs, step? (mode read) c = some (mode (c :: read), []))
    (read rest : List Char) :
    scan? (mode read) (cs ++ rest) = scan? (mode (cs.reverse ++ read)) rest := by
  induction cs generalizing read with
  | nil => rfl
  | cons c cs ih =>
    rw [List.cons_append, scan?, h read c List.mem_cons_self]
    simp [ih fun read d hd => h read d (List.mem_cons_of_mem _ hd)]

theorem scan?_plain {os : List Char} (h : ∀ o ∈ os, o ≠ '"' ∧ o ≠ '\\') (read rest : List Char) :
    scan? (.quoted read) (os ++ rest) = scan? (.quoted (os.reverse ++ read)) rest := by
  refine scan?_stay (fun read o ho => ?_) read rest
  simp [step?, h o ho]

theorem scan?_escape (e : Char) (read rest : List Char) :
    scan? (.quoted read) ('\\' :: e :: rest) = scan? (.quoted (e :: '\\' :: read)) rest := by
  simp [scan?, step?]

theorem scan?_writtenChar (c : Char) (read rest : List Char) :
    scan? (.quoted read) (octetsOf (writtenChar c).toList ++ rest)
      = scan? (.quoted ((octetsOf (writtenChar c).toList).reverse ++ read)) rest := by
  rcases writtenChar_cases c with
    ⟨e, htext, -, -, -, hascii, -⟩ | ⟨a, b, htext, -, ha, hb⟩ | ⟨htext, hquote, hback, hc⟩
  · rw [htext, octetsOf_of_ascii (by simpa using hascii)]
    exact scan?_escape e read rest
  · obtain ⟨-, -, hquote, hback⟩ := bounds_of_hexDigit? ha
    obtain ⟨-, -, hquote', hback'⟩ := bounds_of_hexDigit? hb
    rw [htext, octetsOf_writtenChar_ascii ha hb]
    have hplain : ∀ o ∈ ['0', '0', a, b], o ≠ '"' ∧ o ≠ '\\' := by simp [*]
    exact (scan?_escape 'u' read _).trans (scan?_plain hplain _ rest)
  · rw [htext]
    refine scan?_plain (fun o ho => ?_) read rest
    obtain ⟨hquote', hback', -⟩ := octet_of_plain hquote hback hc ho
    exact ⟨hquote', hback'⟩

theorem scan?_written (cs read rest : List Char) :
    scan? (.quoted read) (octetsOf (cs.flatMap fun c => (writtenChar c).toList) ++ rest)
      = scan? (.quoted ((octetsOf (cs.flatMap fun c => (writtenChar c).toList)).reverse ++ read))
          rest := by
  induction cs generalizing read with
  | nil => rfl
  | cons c cs ih =>
    rw [List.flatMap_cons, octetsOf_append, List.append_assoc, scan?_writtenChar, ih]
    simp

theorem toList_writtenText (s : String) :
    (writtenText s).toList
      = '"' :: (s.toList.flatMap fun c => (writtenChar c).toList) ++ ['"'] := by
  simp [writtenText, List.flatMap_map]

/-- A written text is one lexeme, which stands for the text. -/
theorem scan?_writtenText (s : String) (rest : List Char) :
    scan? .between (octetsOf (writtenText s).toList ++ rest)
      = (scan? .between rest).map (.text (some s) :: ·) := by
  have hquote : octetsOf ['"'] = ['"'] := octetsOf_of_ascii (by simp)
  rw [toList_writtenText, List.cons_append, ← List.singleton_append, octetsOf_append,
    octetsOf_append, hquote, List.append_assoc, List.append_assoc]
  simp only [List.cons_append, List.nil_append]
  have hbegin : step? .between '"' = some (.quoted [], []) := rfl
  rw [scan?, hbegin]
  simp only [Option.bind_eq_bind, Option.bind_some, List.nil_append]
  rw [scan?_written, scan?, step?, if_pos rfl, List.append_nil, List.reverse_reverse,
    quoted?_written]
  cases hrest : scan? .between rest <;> simp [hrest]

end Scan

end SyntaxQuery.Json
