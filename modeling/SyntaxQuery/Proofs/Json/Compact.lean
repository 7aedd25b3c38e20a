import SyntaxQuery.Proofs.Json.Numeral
import SyntaxQuery.Proofs.Json.Quoted

/-!
# Values on one line are read back

What `compact` writes is cut into the lexemes of the value (`scan?_compact`), and these are put
together into its draft (`build?_lexemes`), so it is a JSON text with the value's arrays, objects,
members and texts (`read?_compact`). A numeral is taken for whatever number its digits stand for,
which for a real need not be the number that was written. No control stands in such a text, so it
is one line (`clean_compact`).
-/

namespace SyntaxQuery.Json

open Lexeme

/-- What the numeral of a number stands for. -/
def Number.reread (n : Number) : Option Number :=
  (Numeral.read? n.toText.toList).bind Numeral.value?

mutual

/-- The lexemes of a value. -/
def lexemes : Json → List Lexeme
  | .null => [.null]
  | .bool b => [.bool b]
  | .number n => [.number n.reread]
  | .text s => [.text (some s)]
  | .array items => .openArray :: (itemLexemes items ++ [.closeArray])
  | .object members => .openObject :: (memberLexemes members ++ [.closeObject])

def itemLexemes : List Json → List Lexeme
  | [] => []
  | [v] => lexemes v
  | v :: w :: rest => lexemes v ++ .comma :: itemLexemes (w :: rest)

def memberLexemes : List (String × Json) → List Lexeme
  | [] => []
  | [(name, v)] => .text (some name) :: .colon :: lexemes v
  | (name, v) :: m :: rest =>
    .text (some name) :: .colon :: (lexemes v ++ .comma :: memberLexemes (m :: rest))

end

mutual

/-- A value by its grammar. -/
def draft : Json → Draft
  | .null => .null
  | .bool b => .bool b
  | .number n => .number n.reread
  | .text s => .text (some s)
  | .array items => .array (drafts items)
  | .object members => .object (memberDrafts members)

def drafts : List Json → List Draft
  | [] => []
  | v :: vs => draft v :: drafts vs

def memberDrafts : List (String × Json) → List (Option String × Draft)
  | [] => []
  | (name, v) :: rest => (some name, draft v) :: memberDrafts rest

end

section Scan

/-- The octets are these lexemes, whatever follows them. -/
def Cut (cs : List Char) (ls : List Lexeme) : Prop :=
  ∀ rest, scan? .between (cs ++ rest) = (scan? .between rest).map (ls ++ ·)

/-- What does not go on with a word or a numeral. -/
def Apart (rest : List Char) : Prop := ∀ c ∈ rest.head?, isNumeric c = false ∧ c.isLower = false

/-- The octets are these lexemes, if what follows does not go on with the last of them. -/
def CutApart (cs : List Char) (ls : List Lexeme) : Prop :=
  ∀ rest, Apart rest → scan? .between (cs ++ rest) = (scan? .between rest).map (ls ++ ·)

variable {a b rest : List Char} {ks ls : List Lexeme}

theorem Cut.append (ha : Cut a ks) (hb : Cut b ls) : Cut (a ++ b) (ks ++ ls) := by
  intro rest
  rw [List.append_assoc, ha, hb]
  cases scan? .between rest <;> simp

theorem Cut.append_apart (ha : Cut a ks) (hb : CutApart b ls) : CutApart (a ++ b) (ks ++ ls) := by
  intro rest hrest
  rw [List.append_assoc, ha, hb rest hrest]
  cases scan? .between rest <;> simp

theorem CutApart.append {c : Char} (hc : isNumeric c = false ∧ c.isLower = false)
    (ha : CutApart a ks) (hb : Cut (c :: b) ls) : Cut (a ++ c :: b) (ks ++ ls) := by
  intro rest
  have hapart : Apart (c :: b ++ rest) := by
    rintro d ⟨rfl⟩
    exact hc
  rw [List.append_assoc, ha _ hapart, hb]
  cases scan? .between rest <;> simp

theorem Cut.apart (ha : Cut a ks) : CutApart a ks := fun rest _ => ha rest

theorem Cut.nil : Cut [] [] := by
  intro rest
  simp

theorem cut_mark {c : Char} {l : Lexeme} (h : begin? c = some (.between, [l])) : Cut [c] [l] := by
  intro rest
  rw [List.singleton_append, scan?, step?, h]
  cases hrest : scan? .between rest <;> simp [hrest]

/-- A word or a numeral ends at the first octet that does not go on with it, or with the text. -/
theorem cutApart_of_mode {mode : List Char → Mode} {c : Char} {cs : List Char} {l : Lexeme}
    (hbegin : begin? c = some (mode [c], []))
    (hstay : ∀ read, ∀ d ∈ cs, step? (mode read) d = some (mode (d :: read), []))
    (hleave : ∀ d, isNumeric d = false ∧ d.isLower = false →
      step? (mode (cs.reverse ++ [c])) d = (begin? d).map fun p => (p.1, l :: p.2))
    (hend : finish? (mode (cs.reverse ++ [c])) = some [l]) : CutApart (c :: cs) [l] := by
  intro rest hrest
  rw [List.cons_append, scan?, step?, hbegin]
  simp only [Option.bind_eq_bind, Option.bind_some, List.nil_append]
  rw [scan?_stay hstay]
  cases rest with
  | nil =>
    rw [scan?, scan?, hend]
    rfl
  | cons d rest =>
    rw [scan?, scan?, hleave d (hrest d rfl), step?]
    rcases begin? d with _ | ⟨mode', ls⟩
    · rfl
    · cases hrest : scan? mode' rest <;> simp [hrest]

theorem begin?_numeral {c : Char} (h : c.isDigit ∨ c = '-') :
    begin? c = some (.numeral [c], []) := by
  have hspace : isSpace c = false := by
    by_contra hs
    simp only [isSpace, Bool.not_eq_false, Bool.or_eq_true, decide_eq_true_eq] at hs
    rcases hs with ((rfl | rfl) | rfl) | rfl <;> revert h <;> decide
  have hbegin : (c.isDigit || decide (c = '-')) = true := by simpa using h
  unfold begin?
  split
  case h_8 => simp [hspace, hbegin]
  all_goals
    revert h
    decide

theorem cutApart_spelling (s : Spelling) :
    CutApart s.chars [.number (Numeral.value? s.numeral)] := by
  obtain ⟨c, cs, hcs, hc⟩ := s.exists_cons_chars
  have hread : numeral? (cs.reverse ++ [c]).reverse
      = some (.number (Numeral.value? s.numeral)) := by
    rw [List.reverse_append, List.reverse_reverse, List.reverse_singleton, List.singleton_append,
      ← hcs, numeral?, s.read?_chars]
    rfl
  rw [hcs]
  refine cutApart_of_mode (begin?_numeral hc) (fun read d hd => ?_) (fun d hd => ?_) ?_
  · have hd : d ∈ s.chars := by rw [hcs]; exact List.mem_cons_of_mem _ hd
    simp [step?, s.isNumeric_of_mem_chars hd]
  · simp only [step?, hd.1, hread]
    rcases begin? d with _ | p <;> rfl
  · rw [finish?, hread]
    rfl

theorem bounds_of_isNumeric {c : Char} (h : isNumeric c) : 0x20 ≤ c.toNat ∧ c.toNat < 0x80 := by
  simp only [isNumeric, Char.isDigit, Bool.or_eq_true, Bool.and_eq_true, decide_eq_true_eq] at h
  rcases h with ((((h | rfl) | rfl) | rfl) | rfl) | rfl
  · exact ⟨Nat.le_trans (by decide) h.1, Nat.lt_of_le_of_lt h.2 (by decide)⟩
  all_goals decide

theorem octetsOf_spelling (s : Spelling) : octetsOf s.chars = s.chars :=
  octetsOf_of_ascii fun _ hc => (bounds_of_isNumeric (s.isNumeric_of_mem_chars hc)).2

theorem cutApart_number (n : Number) :
    CutApart (octetsOf n.toText.toList) [.number n.reread] := by
  obtain ⟨s, hs⟩ := exists_spelling n
  rw [Number.reread, ← hs, octetsOf_spelling, s.read?_chars]
  exact cutApart_spelling s

theorem cut_text (s : String) : Cut (octetsOf (writtenText s).toList) [.text (some s)] :=
  fun rest => scan?_writtenText s rest

theorem cutApart_word {c : Char} {cs : List Char} {l : Lexeme}
    (hc : begin? c = some (.word [c], [])) (hcs : cs.all Char.isLower)
    (hl : word? (c :: cs) = some l) : CutApart (c :: cs) [l] := by
  have hread : word? (cs.reverse ++ [c]).reverse = some l := by simpa using hl
  refine cutApart_of_mode hc (fun read d hd => ?_) (fun d hd => ?_) ?_
  · simp [step?, List.all_eq_true.1 hcs d hd]
  · simp only [step?, hd.2, hread]
    rcases begin? d with _ | p <;> rfl
  · rw [finish?, hread]
    rfl

mutual

theorem cutApart_compact : ∀ v, CutApart (octetsOf (compact v).toList) (lexemes v)
  | .null => cutApart_word rfl rfl rfl
  | .bool true => cutApart_word rfl rfl rfl
  | .bool false => cutApart_word rfl rfl rfl
  | .number n => cutApart_number n
  | .text s => (cut_text s).apart
  | .array items => by
    have hopen : Cut ['['] [.openArray] := cut_mark rfl
    have hclose : Cut [']'] [.closeArray] := cut_mark rfl
    have hitems := (cutApart_items items).append ⟨rfl, rfl⟩ hclose
    have htext : octetsOf (compact (.array items)).toList
        = ['['] ++ (octetsOf (compactItems items).toList ++ [']']) := by
      simp [compact, octetsOf_cons]
    rw [htext, lexemes]
    exact (hopen.append hitems).apart
  | .object members => by
    have hopen : Cut ['\x7b'] [.openObject] := cut_mark rfl
    have hclose : Cut ['\x7d'] [.closeObject] := cut_mark rfl
    have hmembers := (cutApart_members members).append ⟨rfl, rfl⟩ hclose
    have htext : octetsOf (compact (.object members)).toList
        = ['\x7b'] ++ (octetsOf (compactMembers members).toList ++ ['\x7d']) := by
      simp [compact, octetsOf_cons]
    rw [htext, lexemes]
    exact (hopen.append hmembers).apart

theorem cutApart_items :
    ∀ items, CutApart (octetsOf (compactItems items).toList) (itemLexemes items)
  | [] => Cut.nil.apart
  | [v] => cutApart_compact v
  | v :: w :: rest => by
    have hcomma : Cut [','] [.comma] := cut_mark rfl
    have hv := (cutApart_compact v).append ⟨rfl, rfl⟩ hcomma
    have htext : octetsOf (compactItems (v :: w :: rest)).toList
        = octetsOf (compact v).toList ++ [','] ++ octetsOf (compactItems (w :: rest)).toList := by
      simp [compactItems, octetsOf_cons]
    rw [htext, itemLexemes]
    simpa using hv.append_apart (cutApart_items (w :: rest))

theorem cutApart_members :
    ∀ members, CutApart (octetsOf (compactMembers members).toList) (memberLexemes members)
  | [] => Cut.nil.apart
  | [(name, v)] => by
    have hcolon : Cut [':'] [.colon] := cut_mark rfl
    have htext : octetsOf (compactMembers [(name, v)]).toList
        = octetsOf (writtenText name).toList ++ [':'] ++ octetsOf (compact v).toList := by
      simp [compactMembers, octetsOf_cons]
    rw [htext, memberLexemes]
    exact ((cut_text name).append hcolon).append_apart (cutApart_compact v)
  | (name, v) :: m :: rest => by
    have hcolon : Cut [':'] [.colon] := cut_mark rfl
    have hcomma : Cut [','] [.comma] := cut_mark rfl
    have hv := (cutApart_compact v).append ⟨rfl, rfl⟩ hcomma
    have htext : octetsOf (compactMembers ((name, v) :: m :: rest)).toList
        = octetsOf (writtenText name).toList ++ [':'] ++ (octetsOf (compact v).toList ++ [',']) ++
          octetsOf (compactMembers (m :: rest)).toList := by
      simp [compactMembers, octetsOf_cons]
    have hfront := (((cut_text name).append hcolon).append hv).append_apart
      (cutApart_members (m :: rest))
    rw [htext, memberLexemes]
    simpa using hfront

end

/-- A value on one line is cut into its lexemes. -/
theorem scan?_compact (v : Json) :
    scan? .between (octetsOf (compact v).toList) = some (lexemes v) := by
  have h := cutApart_compact v [] (by simp [Apart])
  simpa [scan?, finish?] using h

end Scan

section Build

open Draft

theorem itemLexemes_cons (v : Json) (vs : List Json) :
    ∃ ls, itemLexemes (v :: vs) = lexemes v ++ ls := by
  cases vs with
  | nil => exact ⟨[], by rw [itemLexemes, List.append_nil]⟩
  | cons w vs => exact ⟨_, by rw [itemLexemes]⟩

theorem memberLexemes_cons (name : String) (v : Json) (members : List (String × Json)) :
    ∃ ls, memberLexemes ((name, v) :: members) = .text (some name) :: ls := by
  cases members with
  | nil => exact ⟨_, by rw [memberLexemes]⟩
  | cons m members => exact ⟨_, by rw [memberLexemes]⟩

/-- Where an array may still end at once, an item is read as anywhere else. -/
theorem build?_valueOrClose (v : Json) (stack : List Frame) (more : List Lexeme) :
    build? ⟨.array [] :: stack, .valueOrClose⟩ (lexemes v ++ more)
      = build? ⟨.array [] :: stack, .value⟩ (lexemes v ++ more) := by
  cases v <;> rfl

mutual

theorem build?_lexemes : ∀ v stack more,
    build? ⟨stack, .value⟩ (lexemes v ++ more) = build? ⟨stack, .separator (draft v)⟩ more
  | .null, _, _ => rfl
  | .bool _, _, _ => rfl
  | .number _, _, _ => rfl
  | .text _, _, _ => rfl
  | .array [], _, _ => rfl
  | .array (v :: vs), stack, more => by
    have hitems := build?_itemLexemes (v :: vs) (by simp) [] stack more
    have hopen : build? ⟨stack, .value⟩ (lexemes (.array (v :: vs)) ++ more)
        = build? ⟨.array [] :: stack, .valueOrClose⟩
            (itemLexemes (v :: vs) ++ .closeArray :: more) := by
      simp [lexemes, build?, Draft.step?, beginValue?]
    obtain ⟨ls, hls⟩ := itemLexemes_cons v vs
    rw [hls, List.append_assoc] at hitems hopen
    rw [hopen, build?_valueOrClose, hitems, draft]
    rfl
  | .object [], _, _ => rfl
  | .object ((name, v) :: ms), stack, more => by
    have hmembers := build?_memberLexemes ((name, v) :: ms) (by simp) [] stack more
    have hopen : build? ⟨stack, .value⟩ (lexemes (.object ((name, v) :: ms)) ++ more)
        = build? ⟨stack, .nameOrClose⟩
            (memberLexemes ((name, v) :: ms) ++ .closeObject :: more) := by
      simp [lexemes, build?, Draft.step?, beginValue?]
    obtain ⟨ls, hls⟩ := memberLexemes_cons name v ms
    rw [hls] at hmembers hopen
    rw [hopen, draft]
    exact hmembers

theorem build?_itemLexemes : ∀ items, items ≠ [] → ∀ done stack more,
    build? ⟨.array done :: stack, .value⟩ (itemLexemes items ++ .closeArray :: more)
      = build? ⟨stack, .separator (.array (done.reverse ++ drafts items))⟩ more
  | [], h, _, _, _ => absurd rfl h
  | [v], _, done, stack, more => by
    have hv := build?_lexemes v (.array done :: stack) (.closeArray :: more)
    rw [itemLexemes, hv]
    simp [build?, Draft.step?, endValue?, drafts]
  | v :: w :: vs, _, done, stack, more => by
    have hv := build?_lexemes v (.array done :: stack)
      (.comma :: (itemLexemes (w :: vs) ++ .closeArray :: more))
    have hvs := build?_itemLexemes (w :: vs) (by simp) (draft v :: done) stack more
    rw [itemLexemes, List.append_assoc, List.cons_append, hv]
    simp only [build?, Draft.step?, endValue?, Option.bind_eq_bind, Option.bind_some, hvs]
    simp [drafts]

theorem build?_memberLexemes : ∀ members, members ≠ [] → ∀ done stack more,
    build? ⟨stack, .name done⟩ (memberLexemes members ++ .closeObject :: more)
      = build? ⟨stack, .separator (.object (done.reverse ++ memberDrafts members))⟩ more
  | [], h, _, _, _ => absurd rfl h
  | [(name, v)], _, done, stack, more => by
    have hv := build?_lexemes v (.object done (some name) :: stack) (.closeObject :: more)
    simp only [memberLexemes, List.cons_append, build?, Draft.step?, Option.bind_eq_bind,
      Option.bind_some, hv]
    simp [endValue?, memberDrafts]
  | (name, v) :: m :: ms, _, done, stack, more => by
    have hv := build?_lexemes v (.object done (some name) :: stack)
      (.comma :: (memberLexemes (m :: ms) ++ .closeObject :: more))
    have hms := build?_memberLexemes (m :: ms) (by simp) ((some name, draft v) :: done) stack more
    simp only [memberLexemes, List.cons_append, List.append_assoc, build?, Draft.step?,
      Option.bind_eq_bind, Option.bind_some, hv, endValue?, hms]
    simp [memberDrafts]

end

end Build

theorem read?_of_scan? {v : Json} {s : String}
    (h : scan? .between (octetsOf s.toList) = some (lexemes v)) :
    Draft.read? s.toUTF8.toList = some v.draft := by
  have hbuild := build?_lexemes v [] []
  rw [List.append_nil] at hbuild
  rw [Draft.read?, octets_toUTF8, h]
  exact hbuild

/-- A value on one line is a JSON text of the value's form. -/
theorem read?_compact (v : Json) : Draft.read? (compact v).toUTF8.toList = some v.draft :=
  read?_of_scan? (scan?_compact v)

section Controls

/-- No control stands in the text, so no end of a line either. -/
def Clean (s : String) : Prop := ∀ c ∈ s.toList, 0x20 ≤ c.toNat

instance : DecidablePred Clean := fun s => List.decidableBAll _ s.toList

theorem Clean.append {a b : String} (ha : Clean a) (hb : Clean b) : Clean (a ++ b) := by
  intro c hc
  rw [String.toList_append, List.mem_append] at hc
  exact hc.elim (ha c) (hb c)

theorem Clean.newline_not_mem {s : String} (h : Clean s) : '\n' ∉ s.toList :=
  fun hc => absurd (h _ hc) (by decide)

theorem clean_writtenChar (c : Char) : Clean (writtenChar c) := by
  unfold Clean
  rcases writtenChar_cases c with
    ⟨e, htext, -, -, he, -⟩ | ⟨a, b, htext, -, ha, hb⟩ | ⟨htext, -, -, hc⟩
  · simp [htext, he]
  · have ha := (bounds_of_hexDigit? ha).1
    have hb := (bounds_of_hexDigit? hb).1
    simp only [htext, List.forall_mem_cons]
    exact ⟨by decide, by decide, by decide, by decide, by omega, by omega, by simp⟩
  · simpa [htext] using hc

theorem clean_writtenText (s : String) : Clean (writtenText s) := by
  refine ((show Clean "\"" by decide).append ?_).append (by decide)
  intro c hc
  simp only [String.toList_join, List.mem_flatMap, List.mem_map] at hc
  obtain ⟨_, ⟨d, -, rfl⟩, hc⟩ := hc
  exact clean_writtenChar d c hc

theorem clean_number (n : Number) : Clean n.toText := by
  intro c hc
  obtain ⟨s, hs⟩ := exists_spelling n
  rw [← hs] at hc
  exact (bounds_of_isNumeric (s.isNumeric_of_mem_chars hc)).1

mutual

theorem clean_compact : ∀ v, Clean (compact v)
  | .null => by decide
  | .bool true => by decide
  | .bool false => by decide
  | .number n => clean_number n
  | .text s => clean_writtenText s
  | .array items =>
    ((show Clean "[" by decide).append (clean_compactItems items)).append (by decide)
  | .object members =>
    ((show Clean "\x7b" by decide).append (clean_compactMembers members)).append (by decide)

theorem clean_compactItems : ∀ items, Clean (compactItems items)
  | [] => by decide
  | [v] => clean_compact v
  | v :: w :: rest =>
    ((clean_compact v).append (by decide)).append (clean_compactItems (w :: rest))

theorem clean_compactMembers : ∀ members, Clean (compactMembers members)
  | [] => by decide
  | [(name, v)] => ((clean_writtenText name).append (by decide)).append (clean_compact v)
  | (name, v) :: m :: rest =>
    ((((clean_writtenText name).append (by decide)).append (clean_compact v)).append
      (by decide)).append (clean_compactMembers (m :: rest))

end

end Controls

end SyntaxQuery.Json
