import Mathlib.Data.List.Nodup
import SyntaxQuery.Proofs.Json.Compact

/-!
# Values are read back

A value without reals, whose integers fit a word and whose objects name each member once, stands for
itself once it is written (`Plain.value?_draft`), up to the order of the members of its objects.
Reading puts members into the order of their names, and as long as no name comes twice it loses none
(`sortMembers_eq`). So a value that is in this order already (`Ordered.sorted_eq`) is read back as it
is (`Plain.read?_compact_sorted`).
-/

namespace SyntaxQuery.Json

/-- Integers from `-2 ^ 63` to `2 ^ 64 - 1`, no reals, and each member of an object under a name of
its own. -/
inductive Plain : Json → Prop
  | null : Plain .null
  | bool (b : Bool) : Plain (.bool b)
  | integer {n : Int} (hlow : -9223372036854775808 ≤ n)
      (hhigh : n ≤ 18446744073709551615) : Plain (.number (.integer n))
  | text (s : String) : Plain (.text s)
  | array {items : List Json} (h : ∀ v ∈ items, Plain v) : Plain (.array items)
  | object {members : List (String × Json)} (hnames : (members.map (·.1)).Nodup)
      (h : ∀ m ∈ members, Plain m.2) : Plain (.object members)

mutual

/-- How many arrays and objects are inside one another. -/
def depth : Json → Nat
  | .array items => itemsDepth items + 1
  | .object members => membersDepth members + 1
  | _ => 0

def itemsDepth : List Json → Nat
  | [] => 0
  | v :: vs => max (depth v) (itemsDepth vs)

def membersDepth : List (String × Json) → Nat
  | [] => 0
  | (_, v) :: rest => max (depth v) (membersDepth rest)

end

/-- The order of members by their names. -/
def byName {α : Type} (a b : String × α) : Bool := decide (a.1 ≤ b.1)

theorem byName_of_lt {α : Type} {a b : String × α} (h : a.1 < b.1) : byName a b := by
  simpa [byName] using Std.le_of_lt h

mutual

/-- The same value with the members of its objects in the order of their names. -/
def sorted : Json → Json
  | .array items => .array (sortedItems items)
  | .object members => .object ((sortedMembers members).mergeSort byName)
  | v => v

def sortedItems : List Json → List Json
  | [] => []
  | v :: vs => sorted v :: sortedItems vs

def sortedMembers : List (String × Json) → List (String × Json)
  | [] => []
  | (name, v) :: rest => (name, sorted v) :: sortedMembers rest

end

/-- The members of each object are in the order of their names. -/
inductive Ordered : Json → Prop
  | null : Ordered .null
  | bool (b : Bool) : Ordered (.bool b)
  | number (n : Number) : Ordered (.number n)
  | text (s : String) : Ordered (.text s)
  | array {items : List Json} (h : ∀ v ∈ items, Ordered v) : Ordered (.array items)
  | object {members : List (String × Json)} (hnames : members.Pairwise fun a b => a.1 < b.1)
      (h : ∀ m ∈ members, Ordered m.2) : Ordered (.object members)

section Parts

theorem itemsDepth_le_iff {items : List Json} {d : Nat} :
    itemsDepth items ≤ d ↔ ∀ v ∈ items, v.depth ≤ d := by
  induction items with
  | nil => simp [itemsDepth]
  | cons v vs ih => rw [itemsDepth, Nat.max_le, ih, List.forall_mem_cons]

theorem membersDepth_le_iff {members : List (String × Json)} {d : Nat} :
    membersDepth members ≤ d ↔ ∀ m ∈ members, m.2.depth ≤ d := by
  induction members with
  | nil => simp [membersDepth]
  | cons m rest ih => rw [membersDepth, Nat.max_le, ih, List.forall_mem_cons]

/-- What is inside an array has one level less. -/
theorem exists_depth_of_array {items : List Json} {d : Nat} (h : (array items).depth ≤ d) :
    ∃ k, d = k + 1 ∧ ∀ v ∈ items, v.depth ≤ k := by
  rw [depth] at h
  exact ⟨d - 1, by omega, itemsDepth_le_iff.1 (by omega)⟩

theorem exists_depth_of_object {members : List (String × Json)} {d : Nat}
    (h : (object members).depth ≤ d) : ∃ k, d = k + 1 ∧ ∀ m ∈ members, m.2.depth ≤ k := by
  rw [depth] at h
  exact ⟨d - 1, by omega, membersDepth_le_iff.1 (by omega)⟩

theorem sortedItems_eq (items : List Json) : sortedItems items = items.map sorted := by
  induction items with
  | nil => rfl
  | cons v vs ih => rw [sortedItems, ih, List.map_cons]

theorem sortedMembers_eq (members : List (String × Json)) :
    sortedMembers members = members.map fun m => (m.1, m.2.sorted) := by
  induction members with
  | nil => rfl
  | cons m rest ih => rw [sortedMembers, ih, List.map_cons]

theorem memberDrafts_eq (members : List (String × Json)) :
    memberDrafts members = members.map fun m => (some m.1, m.2.draft) := by
  induction members with
  | nil => rfl
  | cons m rest ih => rw [memberDrafts, ih, List.map_cons]

theorem map_fst_sortedMembers (members : List (String × Json)) :
    (sortedMembers members).map (·.1) = members.map (·.1) := by
  rw [sortedMembers_eq, List.map_map]
  rfl

theorem Ordered.sorted_eq {v : Json} (hv : v.Ordered) : v.sorted = v := by
  induction hv with
  | null => rfl
  | bool b => rfl
  | number n => rfl
  | text s => rfl
  | @array items h ih =>
    have hitems : items.map sorted = items.map id := List.map_congr_left ih
    rw [sorted, sortedItems_eq, hitems, List.map_id]
  | @object members hnames h ih =>
    have hmembers : (members.map fun m => (m.1, m.2.sorted)) = members.map id :=
      List.map_congr_left fun m hm => by rw [ih m hm, id]
    rw [sorted, sortedMembers_eq, hmembers, List.map_id, List.mergeSort_of_pairwise]
    exact hnames.imp byName_of_lt

end Parts

section Integers

theorem digit_digitChar : ∀ n < 10, Numeral.digit (Nat.digitChar n) = n := by
  decide

/-- The digits of a number that fits a word make up the number. -/
theorem takeWhole_toDigits (n : Nat) : n ≤ Numeral.maxSignificand → ∀ rest,
    Numeral.Significand.takeWhole ⟨0, 0⟩ ((Nat.toDigits 10 n).map Numeral.digit ++ rest)
      = Numeral.Significand.takeWhole ⟨n, 0⟩ rest := by
  induction n using Nat.strongRecOn with
  | ind n ih =>
    intro hn rest
    rw [Nat.toDigits_eq_if (by decide)]
    split_ifs with hlt
    · simp [Numeral.Significand.takeWhole, digit_digitChar n hlt, Nat.not_lt.2 hn]
    · -- The last digit is read when the others have made up `n / 10`.
      have hten : 10 * (n / 10) + n % 10 = n := Nat.div_add_mod n 10
      have hdigit := digit_digitChar (n % 10) (Nat.mod_lt n (by decide))
      rw [List.map_append, List.append_assoc, ih (n / 10) (by omega) (by omega)]
      simp [Numeral.Significand.takeWhole, hdigit, hten, Nat.not_lt.2 hn]

theorem reread_integer {n : Int} (hlow : -9223372036854775808 ≤ n)
    (hhigh : n ≤ 18446744073709551615) : (Number.integer n).reread = some (.integer n) := by
  have hfits : n.natAbs ≤ Numeral.maxSignificand := by
    unfold Numeral.maxSignificand
    omega
  have hwhole := takeWhole_toDigits n.natAbs hfits []
  rw [List.append_nil, Numeral.Significand.takeWhole] at hwhole
  rw [Number.reread, ← Spelling.chars_ofInteger, Spelling.read?_chars, Option.bind_some]
  simp only [Numeral.value?, Spelling.numeral, Spelling.ofInteger, hwhole, List.map_nil,
    Option.map_none, and_self, if_true]
  by_cases hneg : n < 0
  · have habs : n.natAbs ≠ 0 ∧ n.natAbs ≤ 9223372036854775808 := by omega
    have hn : -(n.natAbs : Int) = n := by omega
    rw [if_neg (by simp [hneg]), if_pos habs, hn]
  · have hn : (n.natAbs : Int) = n := by omega
    rw [if_pos (by simp [hneg]), hn]

end Integers

section Members

variable {α : Type} {name : String} {value : α} {members done : List (String × α)}

theorem insertMember_perm (h : name ∉ done.map (·.1)) :
    (insertMember name value done).Perm ((name, value) :: done) := by
  induction done with
  | nil => exact .refl _
  | cons m done ih =>
    simp only [List.map_cons, List.mem_cons, not_or] at h
    rw [insertMember, if_neg h.1]
    split_ifs
    · exact .refl _
    · exact ((ih h.2).cons m).trans (.swap _ _ _)

theorem pairwise_insertMember (h : done.Pairwise fun a b => a.1 < b.1)
    (hname : name ∉ done.map (·.1)) :
    (insertMember name value done).Pairwise fun a b => a.1 < b.1 := by
  induction done with
  | nil => simp [insertMember]
  | cons m done ih =>
    obtain ⟨hfirst, hdone⟩ := List.pairwise_cons.1 h
    simp only [List.map_cons, List.mem_cons, not_or] at hname
    rw [insertMember, if_neg hname.1]
    split_ifs with hlt
    · refine List.pairwise_cons.2 ⟨List.forall_mem_cons.2 ⟨hlt, fun b hb => ?_⟩, h⟩
      exact String.lt_trans hlt (hfirst b hb)
    · have hm : m.1 < name := Std.lt_of_le_of_ne (String.not_lt.1 hlt) (Ne.symm hname.1)
      refine List.pairwise_cons.2 ⟨fun b hb => ?_, ih hdone hname.2⟩
      rcases List.mem_cons.1 ((insertMember_perm hname.2).mem_iff.1 hb) with rfl | hb
      · exact hm
      · exact hfirst b hb

theorem perm_pairwise_foldl {done : List (String × α)} (h : done.Pairwise fun a b => a.1 < b.1)
    (hnames : ((members ++ done).map (·.1)).Nodup) :
    (members.foldl (fun acc m => insertMember m.1 m.2 acc) done).Perm (members ++ done)
      ∧ (members.foldl (fun acc m => insertMember m.1 m.2 acc) done).Pairwise
          fun a b => a.1 < b.1 := by
  induction members generalizing done with
  | nil => exact ⟨.refl _, h⟩
  | cons m members ih =>
    have hm : m.1 ∉ done.map (·.1) := by
      intro hmem
      rw [List.cons_append, List.map_cons, List.nodup_cons, List.map_append] at hnames
      exact hnames.1 (List.mem_append_right _ hmem)
    have hperm : (members ++ insertMember m.1 m.2 done).Perm (m :: (members ++ done)) :=
      ((insertMember_perm hm).append_left members).trans List.perm_middle
    obtain ⟨hall, hsorted⟩ := ih (pairwise_insertMember h hm)
      ((hperm.map _).nodup_iff.2 hnames)
    exact ⟨hall.trans hperm, hsorted⟩

theorem byName_trans (a b c : String × α) (hab : byName a b) (hbc : byName b c) :
    byName a c := by
  simp only [byName, decide_eq_true_eq] at hab hbc ⊢
  exact String.le_trans hab hbc

theorem byName_total (a b : String × α) : byName a b || byName b a := by
  simpa [byName] using String.le_total a.1 b.1

/-- Members under names of their own are put into the order of the names, and none is lost. -/
theorem sortMembers_eq (hnames : (members.map (·.1)).Nodup) :
    sortMembers members = members.mergeSort byName := by
  have hnil : ((members ++ ([] : List (String × α))).map (·.1)).Nodup := by
    rwa [List.append_nil]
  obtain ⟨hperm, hsorted⟩ := perm_pairwise_foldl .nil hnil
  rw [List.append_nil] at hperm
  have hmerged := List.mergeSort_perm members byName
  refine List.Perm.eq_of_pairwise (fun a b ha hb hab hba => ?_)
    (hsorted.imp byName_of_lt) (List.pairwise_mergeSort byName_trans byName_total members)
    (hperm.trans hmerged.symm)
  simp only [byName, decide_eq_true_eq] at hab hba
  exact List.inj_on_of_nodup_map hnames (hperm.mem_iff.1 ha) (hmerged.mem_iff.1 hb)
    (String.le_antisymm hab hba)

end Members

section Values

variable {v : Json} {items : List Json} {members : List (String × Json)} {d : Nat} {f : Json → Json}

theorem values?_drafts (h : ∀ v ∈ items, v.draft.value? d = some (f v)) :
    Draft.values? d (drafts items) = some (items.map f) := by
  induction items with
  | nil => rfl
  | cons v vs ih =>
    rw [List.forall_mem_cons] at h
    simp [drafts, Draft.values?, h.1, ih h.2]

theorem members?_memberDrafts (h : ∀ m ∈ members, m.2.draft.value? d = some (f m.2)) :
    Draft.members? d (memberDrafts members) = some (members.map fun m => (m.1, f m.2)) := by
  induction members with
  | nil => rfl
  | cons m rest ih =>
    rw [List.forall_mem_cons] at h
    simp [memberDrafts, Draft.members?, h.1, ih h.2]

/-- A plain value that does not nest too deep stands for itself. -/
theorem Plain.value?_draft (hv : v.Plain) (hd : v.depth ≤ d) :
    v.draft.value? d = some v.sorted := by
  induction hv generalizing d with
  | null => rfl
  | bool b => rfl
  | integer hlow hhigh =>
    rw [draft, Draft.value?, reread_integer hlow hhigh]
    rfl
  | text s => rfl
  | array h ih =>
    obtain ⟨d, rfl, hitems⟩ := exists_depth_of_array hd
    rw [draft, Draft.value?, values?_drafts fun v hv => ih v hv (hitems v hv), sorted,
      sortedItems_eq]
    rfl
  | object hnames h ih =>
    obtain ⟨d, rfl, hmembers⟩ := exists_depth_of_object hd
    rw [← map_fst_sortedMembers] at hnames
    rw [draft, Draft.value?, members?_memberDrafts fun m hm => ih m hm (hmembers m hm),
      ← sortedMembers_eq, Option.map_some, ofMembers, sortMembers_eq hnames, sorted]

/-- What is in order already stands for itself as it is. -/
theorem Plain.value?_draft_sorted (hv : v.Plain) (hd : v.depth ≤ d) :
    v.sorted.draft.value? d = some v.sorted := by
  induction hv generalizing d with
  | null => rfl
  | bool b => rfl
  | integer hlow hhigh => exact (Plain.integer hlow hhigh).value?_draft hd
  | text s => rfl
  | @array items h ih =>
    obtain ⟨d, rfl, hitems⟩ := exists_depth_of_array hd
    have hsorted : ∀ w ∈ sortedItems items, w.draft.value? d = some (id w) := by
      rw [sortedItems_eq]
      exact List.forall_mem_map.2 fun v hv => ih v hv (hitems v hv)
    rw [sorted, draft, Draft.value?, values?_drafts hsorted, List.map_id]
    rfl
  | @object members hnames h ih =>
    obtain ⟨d, rfl, hmembers⟩ := exists_depth_of_object hd
    -- Each member is read as it is, and sorting a second time changes nothing.
    have hperm := List.mergeSort_perm (sortedMembers members) byName
    have hsorted : ∀ m ∈ (sortedMembers members).mergeSort byName,
        m.2.draft.value? d = some (id m.2) := by
      intro m hm
      rw [hperm.mem_iff, sortedMembers_eq, List.mem_map] at hm
      obtain ⟨m, hm, rfl⟩ := hm
      exact ih m hm (hmembers m hm)
    have hid : (((sortedMembers members).mergeSort byName).map fun m => (m.1, id m.2))
        = (sortedMembers members).mergeSort byName := List.map_id _
    rw [← map_fst_sortedMembers, ← (hperm.map _).nodup_iff] at hnames
    rw [sorted, draft, Draft.value?, members?_memberDrafts hsorted, hid, Option.map_some, ofMembers,
      sortMembers_eq hnames, List.mergeSort_of_pairwise
        (List.pairwise_mergeSort byName_trans byName_total (sortedMembers members))]

theorem Plain.read?_compact_sorted (hv : v.Plain) (hd : v.depth ≤ maxDepth) :
    Json.read? v.sorted.compact.toUTF8.toList = some v.sorted := by
  rw [Json.read?, read?_compact]
  exact hv.value?_draft_sorted hd

end Values

end SyntaxQuery.Json
