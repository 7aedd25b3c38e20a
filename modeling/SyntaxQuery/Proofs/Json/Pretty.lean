import SyntaxQuery.Proofs.Json.Value

/-!
# Values over several lines are read back

Between lexemes, spaces and the ends of lines do not count (`cut_spaces`). What `pretty` adds to a
value are spaces and ends of lines between its lexemes, so it is cut into the same lexemes as the
value on one line (`cutApart_prettyAt`) and read as the same value (`Plain.read?_pretty`).
-/

namespace SyntaxQuery.Json

open Lexeme

theorem cut_spaces : ∀ {cs : List Char}, (∀ c ∈ cs, c = ' ' ∨ c = '\n') → Cut cs []
  | [], _ => Cut.nil
  | c :: cs, h => by
    rw [List.forall_mem_cons] at h
    have hc : Cut [c] [] := by
      intro rest
      have hbegin : begin? c = some (.between, []) := by
        rcases h.1 with rfl | rfl <;> rfl
      rw [List.singleton_append, scan?, step?, hbegin]
      cases hrest : scan? .between rest <;> simp [hrest]
    exact hc.append (cut_spaces h.2)

/-- A line begins with an end of a line and spaces. -/
theorem exists_indent (level : Nat) :
    ∃ cs, octetsOf (indent level).toList = '\n' :: cs ∧ ∀ c ∈ '\n' :: cs, c = ' ' ∨ c = '\n' := by
  have hspaces : ∀ c ∈ (List.replicate level "  ").flatMap String.toList, c = ' ' := by
    intro c hc
    obtain ⟨s, hs, hc⟩ := List.mem_flatMap.1 hc
    rw [List.eq_of_mem_replicate hs] at hc
    simpa using hc
  refine ⟨(List.replicate level "  ").flatMap String.toList, ?_, ?_⟩
  · have hindent : (indent level).toList
        = '\n' :: (List.replicate level "  ").flatMap String.toList := by simp [indent]
    rw [hindent, octetsOf_of_ascii]
    intro c hc
    rcases List.mem_cons.1 hc with rfl | hc
    · decide
    · rw [hspaces c hc]
      decide
  · intro c hc
    rcases List.mem_cons.1 hc with rfl | hc
    · exact Or.inr rfl
    · exact Or.inl (hspaces c hc)

theorem cut_indent (level : Nat) : Cut (octetsOf (indent level).toList) [] := by
  obtain ⟨cs, hcs, hspaces⟩ := exists_indent level
  rw [hcs]
  exact cut_spaces hspaces

/-- What stands in brackets is followed by a new line, which does not go on with it. -/
theorem CutApart.append_close {a : List Char} {ks : List Lexeme} {c : Char} {l : Lexeme}
    (ha : CutApart a ks) (level : Nat) (hc : begin? c = some (.between, [l])) :
    Cut (a ++ (octetsOf (indent level).toList ++ [c])) (ks ++ [l]) := by
  obtain ⟨cs, hcs, hspaces⟩ := exists_indent level
  have hclose : Cut ('\n' :: cs ++ [c]) ([] ++ [l]) := (cut_spaces hspaces).append (cut_mark hc)
  rw [hcs]
  exact ha.append ⟨rfl, rfl⟩ hclose

theorem cut_name (level : Nat) (name : String) :
    Cut (octetsOf (indent level).toList ++ (octetsOf (writtenText name).toList ++ [':', ' ']))
      [.text (some name), .colon] := by
  have hcolon : Cut [':', ' '] ([.colon] ++ []) :=
    (cut_mark rfl : Cut [':'] [.colon]).append (cut_spaces (by simp))
  exact (cut_indent level).append ((cut_text name).append hcolon)

mutual

theorem cutApart_prettyAt : ∀ level v, CutApart (octetsOf (prettyAt level v).toList) (lexemes v)
  | _, .null => cutApart_compact .null
  | _, .bool b => by
    have h := cutApart_compact (.bool b)
    cases b <;> exact h
  | _, .number n => cutApart_compact (.number n)
  | _, .text s => cutApart_compact (.text s)
  | _, .array [] => cutApart_compact (.array [])
  | level, .array (v :: vs) => by
    have hopen : Cut ['['] [.openArray] := cut_mark rfl
    have hitems := (cutApart_prettyItems (level + 1) (v :: vs)).append_close level
      (show begin? ']' = some (.between, [.closeArray]) from rfl)
    have htext : octetsOf (prettyAt level (.array (v :: vs))).toList
        = ['['] ++ (octetsOf (prettyItems (level + 1) (v :: vs)).toList
            ++ (octetsOf (indent level).toList ++ [']'])) := by
      simp [prettyAt, octetsOf_cons]
    rw [htext, lexemes]
    exact (hopen.append hitems).apart
  | _, .object [] => cutApart_compact (.object [])
  | level, .object (m :: ms) => by
    have hopen : Cut ['\x7b'] [.openObject] := cut_mark rfl
    have hmembers := (cutApart_prettyMembers (level + 1) (m :: ms)).append_close level
      (show begin? '\x7d' = some (.between, [.closeObject]) from rfl)
    have htext : octetsOf (prettyAt level (.object (m :: ms))).toList
        = ['\x7b'] ++ (octetsOf (prettyMembers (level + 1) (m :: ms)).toList
            ++ (octetsOf (indent level).toList ++ ['\x7d'])) := by
      simp [prettyAt, octetsOf_cons]
    rw [htext, lexemes]
    exact (hopen.append hmembers).apart

theorem cutApart_prettyItems : ∀ level items,
    CutApart (octetsOf (prettyItems level items).toList) (itemLexemes items)
  | _, [] => Cut.nil.apart
  | level, [v] => by
    have htext : octetsOf (prettyItems level [v]).toList
        = octetsOf (indent level).toList ++ octetsOf (prettyAt level v).toList := by
      simp [prettyItems]
    rw [htext, itemLexemes]
    exact (cut_indent level).append_apart (cutApart_prettyAt level v)
  | level, v :: w :: rest => by
    have hcomma : Cut [','] [.comma] := cut_mark rfl
    have hv := (cutApart_prettyAt level v).append ⟨rfl, rfl⟩ hcomma
    have htext : octetsOf (prettyItems level (v :: w :: rest)).toList
        = octetsOf (indent level).toList ++ (octetsOf (prettyAt level v).toList ++ [','])
            ++ octetsOf (prettyItems level (w :: rest)).toList := by
      simp [prettyItems, octetsOf_cons]
    rw [htext, itemLexemes]
    simpa using ((cut_indent level).append hv).append_apart
      (cutApart_prettyItems level (w :: rest))

theorem cutApart_prettyMembers : ∀ level members,
    CutApart (octetsOf (prettyMembers level members).toList) (memberLexemes members)
  | _, [] => Cut.nil.apart
  | level, [(name, v)] => by
    have htext : octetsOf (prettyMembers level [(name, v)]).toList
        = octetsOf (indent level).toList ++ (octetsOf (writtenText name).toList ++ [':', ' '])
            ++ octetsOf (prettyAt level v).toList := by
      simp [prettyMembers, octetsOf_cons]
    rw [htext, memberLexemes]
    exact (cut_name level name).append_apart (cutApart_prettyAt level v)
  | level, (name, v) :: m :: rest => by
    have hcomma : Cut [','] [.comma] := cut_mark rfl
    have hv := (cutApart_prettyAt level v).append ⟨rfl, rfl⟩ hcomma
    have htext : octetsOf (prettyMembers level ((name, v) :: m :: rest)).toList
        = octetsOf (indent level).toList ++ (octetsOf (writtenText name).toList ++ [':', ' '])
            ++ (octetsOf (prettyAt level v).toList ++ [','])
            ++ octetsOf (prettyMembers level (m :: rest)).toList := by
      simp [prettyMembers, octetsOf_cons]
    rw [htext, memberLexemes]
    simpa using ((cut_name level name).append hv).append_apart
      (cutApart_prettyMembers level (m :: rest))

end

theorem scan?_pretty (v : Json) :
    scan? .between (octetsOf (v.pretty ++ "\n").toList) = some (lexemes v) := by
  have hend : scan? .between ['\n'] = some [] := rfl
  have h := cutApart_prettyAt 0 v ['\n'] (by rintro c ⟨⟩; exact ⟨rfl, rfl⟩)
  simpa [pretty, octetsOf_cons, hend] using h

/-- A plain value whose members are in order is read back as it is. -/
theorem Plain.read?_pretty {v : Json} (hv : v.Plain) (ho : v.Ordered) (hd : v.depth ≤ maxDepth) :
    Json.read? (v.pretty ++ "\n").toUTF8.toList = some v := by
  have hdraft : Draft.read? (v.pretty ++ "\n").toUTF8.toList = some v.draft :=
    read?_of_scan? (scan?_pretty v)
  rw [Json.read?, hdraft, Option.bind_eq_bind, Option.bind_some, hv.value?_draft hd, ho.sorted_eq]

end SyntaxQuery.Json
