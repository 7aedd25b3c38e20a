/-!
# Byte offsets into a text

Offsets count the bytes of the UTF-8 form. `splitAt? n` cuts a text after its first `n` bytes and
has no answer when that would cut through a character (`splitAt?_eq_some_iff`), so a slice exists
exactly when both of its ends lie between characters.
-/

namespace SyntaxQuery.Text

/-- The number of bytes of the UTF-8 form of `cs`. -/
def byteLength : List Char → Nat
  | [] => 0
  | c :: cs => c.utf8Size + byteLength cs

@[simp] theorem byteLength_nil : byteLength [] = 0 := rfl

@[simp] theorem byteLength_cons (c : Char) (cs : List Char) :
    byteLength (c :: cs) = c.utf8Size + byteLength cs := rfl

@[simp] theorem byteLength_append (a b : List Char) :
    byteLength (a ++ b) = byteLength a + byteLength b := by
  induction a with
  | nil => rw [List.nil_append, byteLength_nil, Nat.zero_add]
  | cons c a ih => rw [List.cons_append, byteLength_cons, byteLength_cons, ih, Nat.add_assoc]

/-- The characters that make up the first `n` bytes, and the others. -/
def splitAt? : List Char → Nat → Option (List Char × List Char)
  | cs, 0 => some ([], cs)
  | [], _ + 1 => none
  | c :: cs, n + 1 =>
    if c.utf8Size ≤ n + 1 then
      (splitAt? cs (n + 1 - c.utf8Size)).map fun p => (c :: p.1, p.2)
    else none

theorem splitAt?_eq_some_iff {cs a b : List Char} {n : Nat} :
    splitAt? cs n = some (a, b) ↔ cs = a ++ b ∧ byteLength a = n := by
  fun_induction splitAt? cs n generalizing a with
  | case1 cs =>
    cases a with
    | nil => simp
    | cons d a =>
      have := d.utf8Size_pos
      simp; omega
  | case2 n =>
    cases a <;> simp
  | case3 c cs n h ih =>
    cases a with
    | nil => simp
    | cons d a =>
      simp only [Option.map_eq_some_iff, Prod.exists, Prod.mk.injEq, List.cons.injEq,
        byteLength_cons, List.cons_append]
      constructor
      · rintro ⟨x, y, hxy, ⟨rfl, rfl⟩, rfl⟩
        obtain ⟨rfl, hx⟩ := ih.1 hxy
        exact ⟨⟨rfl, rfl⟩, by omega⟩
      · rintro ⟨⟨rfl, rfl⟩, hn⟩
        exact ⟨a, b, ih.2 ⟨rfl, by omega⟩, ⟨rfl, rfl⟩, rfl⟩
  | case4 c cs n h =>
    cases a with
    | nil => simp
    | cons d a =>
      simp only [reduceCtorEq, List.cons_append, List.cons.injEq, byteLength_cons, false_iff]
      rintro ⟨⟨rfl, -⟩, hn⟩
      omega

/-- The characters from byte `start` up to byte `stop`, when both lie between characters. -/
def slice? (s : String) (start stop : Nat) : Option (List Char) :=
  if start ≤ stop then do
    let (_, rest) ← splitAt? s.toList start
    let (middle, _) ← splitAt? rest (stop - start)
    return middle
  else none

/-- The text from byte `start` up to byte `stop`; empty when an end cuts through a character or
lies past the text. -/
def slice (s : String) (start stop : Nat) : String :=
  match slice? s start stop with
  | some cs => String.ofList cs
  | none => ""

end SyntaxQuery.Text
