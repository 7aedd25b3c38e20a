import Mathlib.Data.List.TakeWhile
import SyntaxQuery.Proofs.Position
import SyntaxQuery.Text.Utf8

/-!
# Rows and columns of a text

A place in a text is given by what stands before it. `row` counts the line breaks there and `line`
is what stands on the last row, so the column is the length of `line`, in characters or in bytes.
Longer beginnings of one text come later in the order of positions: the position after a beginning
grows with it (`positionAfter_mono`), and so does the position of its last character
(`lastPosition_mono`). The last character of a beginning comes before all that follows it
(`lastPosition_lt_positionAfter`) and not before any character in it
(`positionAfter_le_lastPosition`).
-/

namespace SyntaxQuery.Text

section Bytes

theorem length_le_byteLength (cs : List Char) : cs.length ≤ byteLength cs := by
  induction cs with
  | nil => exact le_rfl
  | cons c cs ih =>
    have := c.utf8Size_pos
    rw [List.length_cons, byteLength_cons]
    omega

theorem byteLength_eq_zero {cs : List Char} (h : byteLength cs = 0) : cs = [] := by
  have := length_le_byteLength cs
  exact List.eq_nil_of_length_eq_zero (by omega)

theorem byteLength_ofList (cs : List Char) : (String.ofList cs).utf8ByteSize = byteLength cs := by
  induction cs with
  | nil => rfl
  | cons c cs ih =>
    rw [String.ofList_cons, String.utf8ByteSize_append, ih, String.utf8ByteSize_singleton,
      byteLength_cons]

theorem utf8ByteSize_eq (s : String) : s.utf8ByteSize = byteLength s.toList := by
  rw [← byteLength_ofList, String.ofList_toList]

theorem byteLength_le_of_isPrefix {a b : List Char} (h : a <+: b) :
    byteLength a ≤ byteLength b := by
  obtain ⟨r, rfl⟩ := h
  rw [byteLength_append]
  omega

/-- Of two beginnings of one text, the one with fewer bytes begins the other. -/
theorem prefix_of_byteLength_le {a b text : List Char} (ha : a <+: text) (hb : b <+: text)
    (h : byteLength a ≤ byteLength b) : a <+: b := by
  rcases List.prefix_or_prefix_of_prefix ha hb with hab | ⟨r, rfl⟩
  · exact hab
  · rw [byteLength_append] at h
    have hr : r = [] := byteLength_eq_zero (by omega)
    simp [hr]

theorem eq_of_byteLength_eq {a b text : List Char} (ha : a <+: text) (hb : b <+: text)
    (h : byteLength a = byteLength b) : a = b :=
  (prefix_of_byteLength_le ha hb h.le).eq_of_length_le
    (prefix_of_byteLength_le hb ha h.ge).length_le

/-- A beginning that ends before a longer one does is followed there by the same character. -/
theorem concat_prefix_of_byteLength_lt {a b text : List Char} {c : Char} (ha : a ++ [c] <+: text)
    (hb : b <+: text) (h : byteLength a < byteLength b) : a ++ [c] <+: b := by
  rcases List.prefix_or_prefix_of_prefix ha hb with hab | hba
  · exact hab
  · rcases List.prefix_concat_iff.1 hba with hba | hba
    · exact hba ▸ List.prefix_rfl
    · have := byteLength_le_of_isPrefix hba
      omega

theorem splitAt?_eq_some_of_isPrefix {a text : List Char} (h : a <+: text) :
    ∃ b, splitAt? text (byteLength a) = some (a, b) := by
  obtain ⟨b, rfl⟩ := h
  exact ⟨b, splitAt?_eq_some_iff.2 ⟨rfl, rfl⟩⟩

theorem slice?_eq_some_iff {s : String} {start stop : Nat} {cs : List Char} :
    slice? s start stop = some cs ↔
      ∃ a b, s.toList = a ++ (cs ++ b) ∧ byteLength a = start
        ∧ start + byteLength cs = stop := by
  constructor
  · intro h
    unfold slice? at h
    split_ifs at h with hle
    simp only [Option.pure_def, Option.bind_eq_bind, Option.bind_eq_some_iff, Prod.exists,
      Option.some.injEq] at h
    obtain ⟨a, rest, ha, middle, b, hb, rfl⟩ := h
    obtain ⟨hs, hlen⟩ := splitAt?_eq_some_iff.1 ha
    obtain ⟨rfl, hmid⟩ := splitAt?_eq_some_iff.1 hb
    exact ⟨a, b, hs, hlen, by omega⟩
  · rintro ⟨a, b, hs, rfl, rfl⟩
    have ha : splitAt? s.toList (byteLength a) = some (a, cs ++ b) :=
      splitAt?_eq_some_iff.2 ⟨hs, rfl⟩
    have hb : splitAt? (cs ++ b) (byteLength a + byteLength cs - byteLength a) = some (cs, b) :=
      splitAt?_eq_some_iff.2 ⟨rfl, by omega⟩
    unfold slice?
    rw [if_pos (by omega)]
    simp only [Option.pure_def, Option.bind_eq_bind, ha, hb, Option.bind_some]

theorem slice?_of_isPrefix {s : String} {a cs : List Char} (h : a ++ cs <+: s.toList) :
    slice? s (byteLength a) (byteLength (a ++ cs)) = some cs := by
  obtain ⟨b, hb⟩ := h
  refine slice?_eq_some_iff.2 ⟨a, b, ?_, rfl, ?_⟩
  · rw [← hb, List.append_assoc]
  · rw [byteLength_append]

/-- Between two beginnings of a text there is a slice: what the longer one adds. -/
theorem exists_slice? {s : String} {a b : List Char} (ha : a <+: s.toList) (hb : b <+: s.toList)
    (h : byteLength a ≤ byteLength b) :
    ∃ cs, slice? s (byteLength a) (byteLength b) = some cs := by
  obtain ⟨cs, rfl⟩ := prefix_of_byteLength_le ha hb h
  exact ⟨cs, slice?_of_isPrefix hb⟩

/-- Two slices that meet make one. -/
theorem slice?_append {s : String} {i j k : Nat} {x y : List Char} (hx : slice? s i j = some x)
    (hy : slice? s j k = some y) : slice? s i k = some (x ++ y) := by
  obtain ⟨a, b, hs, rfl, rfl⟩ := slice?_eq_some_iff.1 hx
  obtain ⟨a', b', hs', hlen, rfl⟩ := slice?_eq_some_iff.1 hy
  have ha : a' = a ++ x := by
    have ha' : a' <+: s.toList := ⟨y ++ b', hs'.symm⟩
    refine eq_of_byteLength_eq ha' ⟨b, ?_⟩ ?_
    · rw [hs, List.append_assoc]
    · rw [hlen, byteLength_append]
  refine slice?_eq_some_iff.2 ⟨a, b', ?_, rfl, ?_⟩
  · rw [hs', ha, List.append_assoc, List.append_assoc]
  · rw [byteLength_append, Nat.add_assoc]

/-- What stands between two places inside a slice is a part of it. -/
theorem slice_isInfix {s : String} {i j i' j' : Nat} {cs : List Char} (h : slice? s i j = some cs)
    (hi : i ≤ i') (hj : j' ≤ j) : (slice s i' j').toList <:+: cs := by
  unfold slice
  cases h' : slice? s i' j' with
  | none => exact List.nil_infix
  | some cs' =>
    obtain ⟨a, b, hs, rfl, rfl⟩ := slice?_eq_some_iff.1 h
    obtain ⟨a', b', hs', rfl, rfl⟩ := slice?_eq_some_iff.1 h'
    obtain ⟨u, rfl⟩ : a <+: a' := prefix_of_byteLength_le ⟨_, hs.symm⟩ ⟨_, hs'.symm⟩ hi
    have hinner : (a ++ u) ++ cs' <+: s.toList := ⟨b', by rw [hs', List.append_assoc]⟩
    have houter : a ++ cs <+: s.toList := ⟨b, by rw [hs, List.append_assoc]⟩
    obtain ⟨v, hv⟩ : (a ++ u) ++ cs' <+: a ++ cs := by
      refine prefix_of_byteLength_le hinner houter ?_
      rw [byteLength_append, byteLength_append a cs]
      exact hj
    rw [List.append_assoc, List.append_assoc, List.append_cancel_left_eq] at hv
    exact ⟨u, v, by rw [← hv, List.append_assoc, String.toList_ofList]⟩

end Bytes

/-- The number of line breaks before a place. -/
def row (before : List Char) : Nat := before.count '\n'

/-- What stands before a place on its own row. -/
def line (before : List Char) : List Char := (before.reverse.takeWhile (· ≠ '\n')).reverse

theorem row_append (a b : List Char) : row (a ++ b) = row a + row b := List.count_append

theorem line_append_of_not_mem {a b : List Char} (h : '\n' ∉ b) : line (a ++ b) = line a ++ b := by
  unfold line
  rw [List.reverse_append, List.takeWhile_append_of_pos, List.reverse_append, List.reverse_reverse]
  intro c hc
  rw [decide_eq_true_iff]
  rintro rfl
  exact h (List.mem_reverse.1 hc)

theorem line_suffix (before : List Char) : line before <:+ before := by
  have h := List.takeWhile_prefix (l := before.reverse) (· ≠ '\n')
  have := List.reverse_suffix.2 h
  rwa [List.reverse_reverse] at this

theorem row_le_byteLength (before : List Char) : row before ≤ byteLength before :=
  List.count_le_length.trans (length_le_byteLength before)

theorem length_line_le_byteLength (before : List Char) :
    (line before).length ≤ byteLength before :=
  (line_suffix before).length_le.trans (length_le_byteLength before)

/-- A longer beginning reaches a later row, or at least as far in the same row. -/
theorem row_line_of_isPrefix {a b : List Char} (h : a <+: b) :
    row a < row b ∨ row a = row b ∧ (line a).length ≤ (line b).length := by
  obtain ⟨r, rfl⟩ := h
  rw [row_append]
  by_cases hr : '\n' ∈ r
  · have : 0 < row r := List.count_pos_iff.2 hr
    omega
  · have : row r = 0 := List.count_eq_zero.2 hr
    rw [line_append_of_not_mem hr, List.length_append]
    omega

/-- A beginning that goes on by at least one character reaches a later row or column. -/
theorem row_line_of_concat_isPrefix {a b : List Char} {c : Char} (h : a ++ [c] <+: b) :
    row a < row b ∨ row a = row b ∧ (line a).length < (line b).length := by
  have hb := row_line_of_isPrefix h
  rw [row_append] at hb
  by_cases hc : c = '\n'
  · have : row [c] = 1 := by
      rw [hc]
      rfl
    omega
  · have hmem : '\n' ∉ [c] := by
      rw [List.mem_singleton]
      exact fun h => hc h.symm
    have : row [c] = 0 := List.count_eq_zero.2 hmem
    rw [line_append_of_not_mem hmem, List.length_append, List.length_singleton] at hb
    omega

/-- Byte `byte` of `source` lies between two characters, `column` bytes into row `r`. -/
def Placed (source : String) (byte r column : Nat) : Prop :=
  ∃ split ∈ splitAt? source.toList byte,
    row split.1 = r ∧ byteLength (line split.1) = column

instance (source : String) (byte r column : Nat) : Decidable (Placed source byte r column) :=
  inferInstanceAs (Decidable (∃ split ∈ splitAt? source.toList byte,
    row split.1 = r ∧ byteLength (line split.1) = column))

theorem placed_iff {source : String} {byte r column : Nat} :
    Placed source byte r column ↔ ∃ before, before <+: source.toList ∧ byteLength before = byte
      ∧ row before = r ∧ byteLength (line before) = column := by
  constructor
  · rintro ⟨⟨before, after⟩, hsplit, hr, hc⟩
    obtain ⟨hs, hlen⟩ := splitAt?_eq_some_iff.1 hsplit
    exact ⟨before, ⟨after, hs.symm⟩, hlen, hr, hc⟩
  · rintro ⟨before, hpre, rfl, hr, hc⟩
    obtain ⟨after, hsplit⟩ := splitAt?_eq_some_of_isPrefix hpre
    exact ⟨(before, after), hsplit, hr, hc⟩

/-- The position of the character that follows `before`. -/
def positionAfter (before : List Char) : Position :=
  ⟨UInt32.ofNat (row before + 1), UInt32.ofNat ((line before).length + 1)⟩

/-- The position of the last character of `before`; column 0 when its last row is empty. -/
def lastPosition (before : List Char) : Position :=
  ⟨UInt32.ofNat (row before + 1), UInt32.ofNat (line before).length⟩

/-- A text whose rows and columns all fit into a position. -/
def Fits (before : List Char) : Prop := byteLength before < UInt32.size - 1

theorem Fits.of_isPrefix {a b : List Char} (hb : Fits b) (h : a <+: b) : Fits a :=
  (byteLength_le_of_isPrefix h).trans_lt hb

section Order

variable {a b : List Char}

theorem positionAfter_row (h : Fits a) : (positionAfter a).row.toNat = row a + 1 := by
  have := row_le_byteLength a
  unfold Fits at h
  exact UInt32.toNat_ofNat_of_lt' (by omega)

theorem positionAfter_column (h : Fits a) :
    (positionAfter a).column.toNat = (line a).length + 1 := by
  have := length_line_le_byteLength a
  unfold Fits at h
  exact UInt32.toNat_ofNat_of_lt' (by omega)

theorem lastPosition_row (h : Fits a) : (lastPosition a).row.toNat = row a + 1 :=
  positionAfter_row h

theorem lastPosition_column (h : Fits a) :
    (lastPosition a).column.toNat = (line a).length := by
  have := length_line_le_byteLength a
  unfold Fits at h
  exact UInt32.toNat_ofNat_of_lt' (by omega)

theorem positionAfter_mono (hb : Fits b) (h : a <+: b) : positionAfter a ≤ positionAfter b := by
  have ha := hb.of_isPrefix h
  have := row_line_of_isPrefix h
  rw [Position.le_iff, positionAfter_row ha, positionAfter_row hb, positionAfter_column ha,
    positionAfter_column hb]
  omega

theorem lastPosition_mono (hb : Fits b) (h : a <+: b) : lastPosition a ≤ lastPosition b := by
  have ha := hb.of_isPrefix h
  have := row_line_of_isPrefix h
  rw [Position.le_iff, lastPosition_row ha, lastPosition_row hb, lastPosition_column ha,
    lastPosition_column hb]
  omega

theorem lastPosition_lt_positionAfter (hb : Fits b) (h : a <+: b) :
    lastPosition a < positionAfter b := by
  have ha := hb.of_isPrefix h
  have := row_line_of_isPrefix h
  rw [Position.lt_iff, lastPosition_row ha, positionAfter_row hb, lastPosition_column ha,
    positionAfter_column hb]
  omega

theorem positionAfter_le_lastPosition {c : Char} (hb : Fits b) (h : a ++ [c] <+: b) :
    positionAfter a ≤ lastPosition b := by
  have ha := hb.of_isPrefix ((List.prefix_append a [c]).trans h)
  have := row_line_of_concat_isPrefix h
  rw [Position.le_iff, positionAfter_row ha, lastPosition_row hb, positionAfter_column ha,
    lastPosition_column hb]
  omega

theorem positionAfter_lt {c : Char} (hb : Fits b) (h : a ++ [c] <+: b) :
    positionAfter a < positionAfter b :=
  (positionAfter_le_lastPosition hb h).trans_lt
    (lastPosition_lt_positionAfter hb (List.prefix_refl b))

end Order

end SyntaxQuery.Text
