import Mathlib.Data.List.Basic
import SyntaxQuery.Json.Reader

/-!
# The octets of a text

A JSON text is read octet by octet. The octets of a text are those of its characters one after
another (`octets_toUTF8`): a character below 0x80 is its own octet, and all octets of any other are
0x80 or more, so they are never taken for a quote, a backslash or a control. The octets of a text
give the text back (`map_octetsOf`, `fromUTF8?_flatMap`).
-/

namespace SyntaxQuery.Json

section Bytes

theorem toList_loop_eq (b : ByteArray) (i : Nat) (done : List UInt8) :
    ByteArray.toList.loop b i done = done.reverse ++ b.data.toList.drop i := by
  fun_induction ByteArray.toList.loop b i done with
  | case1 i done h ih =>
    have hi : i < b.data.toList.length := by simpa using h
    rw [ih, List.drop_eq_getElem_cons hi]
    simp [ByteArray.get!, h]
  | case2 i done h =>
    rw [List.drop_eq_nil_of_le (by simpa using h)]
    simp

theorem toList_toUTF8 (s : String) :
    s.toUTF8.toList = s.toList.flatMap String.utf8EncodeChar := by
  rw [String.toUTF8_eq_toByteArray, ← String.utf8Encode_toList, ByteArray.toList, toList_loop_eq]
  simp [List.utf8Encode]

theorem fromUTF8?_flatMap (cs : List Char) :
    String.fromUTF8? ⟨(cs.flatMap String.utf8EncodeChar).toArray⟩ = some (String.ofList cs) := by
  have harray : (⟨(cs.flatMap String.utf8EncodeChar).toArray⟩ : ByteArray) = cs.utf8Encode := by
    ext1
    apply Array.toList_inj.1
    simp [List.utf8Encode]
  rw [harray, String.fromUTF8?, dif_pos ByteArray.isValidUTF8_utf8Encode]
  rfl

variable {c : Char}

theorem utf8EncodeChar_of_ascii (h : c.toNat < 0x80) :
    String.utf8EncodeChar c = [c.toNat.toUInt8] := by
  have hv : c.val.toNat ≤ 0x7f := Nat.le_of_lt_succ h
  simp only [String.utf8EncodeChar, hv, if_true]
  rfl

theorem le_of_mem_utf8EncodeChar (h : 0x80 ≤ c.toNat) {b : UInt8}
    (hb : b ∈ String.utf8EncodeChar c) : 0x80 ≤ b.toNat := by
  have hv : ¬ c.val.toNat ≤ 0x7f := Nat.not_le_of_lt h
  simp only [String.utf8EncodeChar, hv, if_false] at hb
  split_ifs at hb <;> simp only [List.mem_cons, List.not_mem_nil, or_false] at hb
  · rcases hb with rfl | rfl <;> rw [UInt8.toNat_ofNat'] <;> omega
  · rcases hb with rfl | rfl | rfl <;> rw [UInt8.toNat_ofNat'] <;> omega
  · rcases hb with rfl | rfl | rfl | rfl <;> rw [UInt8.toNat_ofNat'] <;> omega

/-- An octet below 0x80 stands for its character alone. -/
theorem not_mem_toUTF8 {b : UInt8} (hb : b.toNat < 0x80) {s : String}
    (h : Char.ofNat b.toNat ∉ s.toList) : b ∉ s.toUTF8.toList := by
  rw [toList_toUTF8, List.mem_flatMap]
  rintro ⟨c, hc, hmem⟩
  by_cases hascii : c.toNat < 0x80
  · rw [utf8EncodeChar_of_ascii hascii, List.mem_singleton] at hmem
    have hnat : c.toNat = b.toNat := by
      rw [hmem]
      exact (Nat.mod_eq_of_lt (by omega)).symm
    rw [← hnat, Char.ofNat_toNat] at h
    exact h hc
  · have := le_of_mem_utf8EncodeChar (Nat.not_lt.1 hascii) hmem
    omega

theorem toUTF8_inj {s t : String} (h : s.toUTF8.toList = t.toUTF8.toList) : s = t := by
  rw [toList_toUTF8, toList_toUTF8] at h
  have hs := fromUTF8?_flatMap s.toList
  rw [h, fromUTF8?_flatMap] at hs
  simpa using hs.symm

end Bytes

theorem toNat_ofNat_toNat (b : UInt8) : (Char.ofNat b.toNat).toNat = b.toNat := by
  have h : b.toNat < 0xd800 := Nat.lt_trans b.toNat_lt (by decide)
  rw [Char.ofNat, dif_pos (Or.inl h)]
  rfl

/-- The octets of the characters, each as the character of the same number. -/
def octetsOf (cs : List Char) : List Char := Draft.octets (cs.flatMap String.utf8EncodeChar)

theorem octets_toUTF8 (s : String) : Draft.octets s.toUTF8.toList = octetsOf s.toList := by
  rw [toList_toUTF8, octetsOf]

@[simp] theorem octetsOf_nil : octetsOf [] = [] := rfl

@[simp] theorem octetsOf_append (a b : List Char) :
    octetsOf (a ++ b) = octetsOf a ++ octetsOf b := by
  simp [octetsOf, Draft.octets]

theorem octetsOf_cons (c : Char) (cs : List Char) (h : c.toNat < 0x80) :
    octetsOf (c :: cs) = c :: octetsOf cs := by
  have hb : c.toNat.toUInt8.toNat = c.toNat := Nat.mod_eq_of_lt (by omega)
  simp only [octetsOf, Draft.octets, List.flatMap_cons, utf8EncodeChar_of_ascii h,
    List.singleton_append, List.map_cons, hb, Char.ofNat_toNat]

theorem octetsOf_of_ascii {cs : List Char} (h : ∀ c ∈ cs, c.toNat < 0x80) : octetsOf cs = cs := by
  induction cs with
  | nil => rfl
  | cons c cs ih =>
    rw [octetsOf_cons c cs (h c List.mem_cons_self), ih fun d hd => h d (List.mem_cons_of_mem _ hd)]

theorem le_of_mem_octetsOf {c o : Char} (h : 0x80 ≤ c.toNat) (ho : o ∈ octetsOf [c]) :
    0x80 ≤ o.toNat := by
  simp only [octetsOf, Draft.octets, List.flatMap_singleton, List.mem_map] at ho
  obtain ⟨b, hb, rfl⟩ := ho
  rw [toNat_ofNat_toNat]
  exact le_of_mem_utf8EncodeChar h hb

theorem map_octetsOf (cs : List Char) :
    (octetsOf cs).map (fun c => c.toNat.toUInt8) = cs.flatMap String.utf8EncodeChar := by
  simp only [octetsOf, Draft.octets, List.map_map, Function.comp_def, toNat_ofNat_toNat]
  simp

end SyntaxQuery.Json
