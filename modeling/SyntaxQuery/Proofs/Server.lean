import Mathlib
import SyntaxQuery.Proofs.Json.Compact
import SyntaxQuery.Proofs.Provider
import SyntaxQuery.Server

/-!
# Each line is answered on its own

A stream falls into lines at its newlines (`Server.flatMap_lines`), so what was answered up to a
newline is not touched by what follows it. As steady providers give one answer to a call, a line is
answered as by a new provider whatever came before it (`Server.answerLines_eq`). Each answer is one
line, which is an object with the id of the request and either a result or a failure (`Answers`).
-/

namespace SyntaxQuery

namespace Request

/-- The id of a request that is written so: its member `id` or its first item, and null where an
object has no such member. -/
def Identified : Json.Draft → Json → Prop
  | .object members, id =>
    (id = .null ∧ ∀ m ∈ members, m.1 ≠ some "id")
      ∨ ∃ d, members.filter (·.1 = some "id") = [(some "id", d)]
          ∧ d.value? (Json.maxDepth - 1) = some id
  | .array (d :: _), id => d.value? (Json.maxDepth - 1) = some id
  | _, _ => False

theorem value?_of_valueOf {d : Json.Draft} {v : Json} (h : valueOf d = .ok v) :
    d.value? (Json.maxDepth - 1) = some v := by
  unfold valueOf at h
  split at h
  · rename_i w hw
    rw [hw, Except.ok.inj h]
  · simp at h

theorem exists_of_bind_eq_ok {ε α β : Type} {x : Except ε α} {f : α → Except ε β} {b : β}
    (h : x >>= f = .ok b) : ∃ a, x = .ok a ∧ f a = .ok b := by
  cases x with
  | error e => exact nomatch h
  | ok a => exact ⟨a, rfl, h⟩

theorem of_once {α : Type} {name : String} {before o : Option α} {now : Except RequestError α}
    (h : once name before now = .ok o) : before = none ∧ ∃ a, now = .ok a ∧ o = some a := by
  cases before with
  | some a => exact nomatch h
  | none =>
    cases now with
    | error e => exact nomatch h
    | ok a => exact ⟨rfl, a, rfl, (Except.ok.inj h).symm⟩

theorem id_of_takeMember {r r' : Members} {m : Option String × Json.Draft}
    (h : takeMember r m = .ok r') :
    (m.1 ≠ some "id" ∧ r'.id = r.id)
      ∨ m.1 = some "id" ∧ r.id = none
          ∧ ∃ v, m.2.value? (Json.maxDepth - 1) = some v ∧ r'.id = some v := by
  obtain ⟨_ | name, d⟩ := m
  · exact nomatch h
  · simp only [takeMember] at h
    by_cases hid : name = "id"
    · rw [if_pos hid] at h
      obtain ⟨o, ho, hr⟩ := exists_of_bind_eq_ok h
      obtain ⟨hnone, v, hv, rfl⟩ := of_once ho
      obtain rfl := Except.ok.inj hr
      exact Or.inr ⟨congrArg some hid, hnone, v, value?_of_valueOf hv, rfl⟩
    · rw [if_neg hid] at h
      refine Or.inl ⟨by simpa using hid, ?_⟩
      split_ifs at h
      · obtain ⟨o, -, hr⟩ := exists_of_bind_eq_ok h
        obtain rfl := Except.ok.inj hr
        rfl
      · obtain ⟨o, -, hr⟩ := exists_of_bind_eq_ok h
        obtain rfl := Except.ok.inj hr
        rfl
      · obtain rfl := Except.ok.inj h
        rfl

theorem id_of_foldlM {members : List (Option String × Json.Draft)} {r r' : Members}
    (h : members.foldlM takeMember r = .ok r') :
    (r'.id = r.id ∧ ∀ m ∈ members, m.1 ≠ some "id")
      ∨ r.id = none ∧ ∃ d v, members.filter (·.1 = some "id") = [(some "id", d)]
          ∧ d.value? (Json.maxDepth - 1) = some v ∧ r'.id = some v := by
  induction members generalizing r with
  | nil =>
    obtain rfl := Except.ok.inj h
    exact Or.inl ⟨rfl, by simp⟩
  | cons m members ih =>
    rw [List.foldlM_cons] at h
    obtain ⟨r₁, hm, hrest⟩ := exists_of_bind_eq_ok h
    rcases id_of_takeMember hm with ⟨hother, hsame⟩ | ⟨hid, hnone, v, hv, hset⟩
    · rcases ih hrest with ⟨hr, hall⟩ | ⟨hnone, d, v, hfilter, hv, hset⟩
      · exact Or.inl ⟨hr.trans hsame, List.forall_mem_cons.2 ⟨hother, hall⟩⟩
      · exact Or.inr ⟨hsame ▸ hnone, d, v, by simp [hother, hfilter], hv, hset⟩
    · rcases ih hrest with ⟨hr, hall⟩ | ⟨hnone', -⟩
      · have hfilter : members.filter (·.1 = some "id") = [] := by
          simpa [List.filter_eq_nil_iff] using hall
        refine Or.inr ⟨hnone, m.2, v, ?_, hv, hr.trans hset⟩
        rw [List.filter_cons, if_pos (by simpa using hid), hfilter, ← hid]
      · simp [hset] at hnone'

theorem identified_of_ofMembers {members : List (Option String × Json.Draft)} {r : Request}
    (h : ofMembers members = .ok r) : Identified (.object members) r.id := by
  obtain ⟨ms, hms, hr⟩ := exists_of_bind_eq_ok h
  have hid : r.id = ms.id.getD .null := by
    cases hmethod : ms.method with
    | none => simp [hmethod] at hr
    | some method =>
      simp only [hmethod] at hr
      rw [← Except.ok.inj hr]
  rcases id_of_foldlM hms with ⟨hnone, hall⟩ | ⟨-, d, v, hfilter, hv, hset⟩
  · exact Or.inl ⟨by rw [hid, hnone]; rfl, hall⟩
  · exact Or.inr ⟨d, hfilter, by rw [hid, hset, hv]; rfl⟩

theorem identified_of_ofItems {items : List Json.Draft} {r : Request} (h : ofItems items = .ok r) :
    Identified (.array items) r.id := by
  rcases items with _ | ⟨id, _ | ⟨method, _ | ⟨params, rest⟩⟩⟩
  · exact nomatch h
  · obtain ⟨v, -, hr⟩ := exists_of_bind_eq_ok h
    exact nomatch hr
  · obtain ⟨v, hv, h⟩ := exists_of_bind_eq_ok h
    obtain ⟨m, -, h⟩ := exists_of_bind_eq_ok h
    rw [← Except.ok.inj h]
    exact value?_of_valueOf hv
  · obtain ⟨v, hv, h⟩ := exists_of_bind_eq_ok h
    obtain ⟨m, -, h⟩ := exists_of_bind_eq_ok h
    obtain ⟨w, -, h⟩ := exists_of_bind_eq_ok h
    split_ifs at h
    rw [← Except.ok.inj h]
    exact value?_of_valueOf hv

theorem identified_of_ofDraft {d : Json.Draft} {r : Request} (h : ofDraft d = .ok r) :
    Identified d r.id := by
  unfold ofDraft at h
  split at h
  · exact identified_of_ofMembers h
  · exact identified_of_ofItems h
  · split at h <;> simp at h

theorem identified_of_read {line : List UInt8} {r : Request} (h : read line = .ok r) :
    ∃ d, Json.Draft.read? line = some d ∧ Identified d r.id := by
  unfold read at h
  split at h
  · simp at h
  · rename_i d hd
    refine ⟨d, hd, ?_⟩
    split at h
    · rename_i r' hr
      rw [← Except.ok.inj h]
      exact identified_of_ofDraft hr
    · simp at h
    · simp at h

end Request

namespace Server

section Lines

variable {a b bytes : List UInt8}

theorem lines_eq_nil_iff : lines bytes = [] ↔ bytes = [] := by
  cases bytes with
  | nil => simp [lines]
  | cons x bytes =>
    rw [lines]
    split_ifs
    · simp
    · split <;> simp

/-- No line is left open at the end of the stream. -/
def Ended (bytes : List UInt8) : Prop := bytes = [] ∨ bytes.getLast? = some 0x0a

instance : DecidablePred Ended := fun bytes => inferInstanceAs (Decidable (bytes = [] ∨ _))

theorem ended_newline_cons : Ended (0x0a :: bytes) ↔ Ended bytes := by
  cases bytes <;> simp [Ended]

theorem ended_cons (h : bytes ≠ []) (x : UInt8) : Ended (x :: bytes) ↔ Ended bytes := by
  obtain ⟨y, bytes, rfl⟩ := List.exists_cons_of_ne_nil h
  simp [Ended]

theorem lines_append (h : Ended a) : lines (a ++ b) = lines a ++ lines b := by
  induction a with
  | nil => rfl
  | cons x a ih =>
    rw [List.cons_append, lines, lines]
    by_cases hx : x = 0x0a
    · subst hx
      simp [ih (ended_newline_cons.1 h)]
    · -- The line that `x` begins goes on in `a` and ends there.
      have hne : a ≠ [] := by
        rintro rfl
        simp [Ended, hx] at h
      obtain ⟨line, more, hlines⟩ :=
        List.exists_cons_of_ne_nil (fun h => hne (lines_eq_nil_iff.1 h))
      simp [hx, ih ((ended_cons hne x).1 h), hlines]

theorem newline_not_mem_lines (bytes : List UInt8) : ∀ line ∈ lines bytes, 0x0a ∉ line := by
  induction bytes with
  | nil => simp [lines]
  | cons x bytes ih =>
    rw [lines]
    split_ifs with hx
    · simpa using ih
    · have hx : (0x0a : UInt8) ≠ x := Ne.symm hx
      split
      · simp [hx]
      · rename_i line more hlines
        rw [hlines] at ih
        simp only [List.forall_mem_cons] at ih ⊢
        exact ⟨by simp [hx, ih.1], ih.2⟩

/-- The lines make up the stream, once its last line has been ended too. -/
theorem flatMap_lines (bytes : List UInt8) :
    (lines bytes).flatMap (· ++ [0x0a]) = if Ended bytes then bytes else bytes ++ [0x0a] := by
  induction bytes with
  | nil => rfl
  | cons x bytes ih =>
    rw [lines]
    by_cases hx : x = 0x0a
    · subst hx
      simp only [if_true, List.flatMap_cons, ih, ended_newline_cons, List.nil_append]
      split_ifs <;> rfl
    · by_cases hne : bytes = []
      · subst hne
        simp [hx, lines, Ended]
      · obtain ⟨line, more, hlines⟩ :=
          List.exists_cons_of_ne_nil (fun h => hne (lines_eq_nil_iff.1 h))
        rw [hlines] at ih
        simp only [hx, if_false, hlines, List.flatMap_cons, List.cons_append,
          ended_cons hne] at ih ⊢
        rw [ih]
        split_ifs <;> rfl

end Lines

section Answers

variable {κ : Type} [DecidableEq κ] {engine : Engine κ} {config : Config} {logged : Bool}
  {p p' : Provider κ}

/-- The lines that are requests. -/
def requests (bytes : List UInt8) : List (List UInt8) :=
  (lines bytes).filter fun line => !isBlankLine line

theorem steady_answerLine (h : p.Steady engine.parser config logged) (line : List UInt8) :
    (answerLine engine p line).2.Steady engine.parser config logged := by
  unfold answerLine
  split
  · exact h
  · exact h.call _ _

theorem answerLine_eq (h : p.Steady engine.parser config logged)
    (h' : p'.Steady engine.parser config logged) (line : List UInt8) :
    (answerLine engine p line).1 = (answerLine engine p' line).1 := by
  unfold answerLine
  cases Request.read line with
  | error text => rfl
  | ok r => exact congrArg (response r.id) (Provider.Steady.answer_eq rfl rfl h h' r.method r.params)

theorem answerLines_eq (h' : p'.Steady engine.parser config logged) (ls : List (List UInt8)) :
    ∀ {p : Provider κ}, p.Steady engine.parser config logged →
      (answerLines engine p ls).1
        = (ls.filter fun line => !isBlankLine line).map fun line =>
            (answerLine engine p' line).1.compact := by
  induction ls with
  | nil => exact fun _ => rfl
  | cons line ls ih =>
    intro p h
    rw [answerLines]
    by_cases hblank : isBlankLine line
    · simp [hblank, ih h]
    · simp [hblank, ih (steady_answerLine h line), answerLine_eq h h' line]

theorem serve_eq_join (h : p.Steady engine.parser config logged) (bytes : List UInt8) :
    serve engine p bytes = String.join ((requests bytes).map fun line =>
      (answerLine engine p line).1.compact ++ "\n") := by
  rw [serve, answers, answerLines_eq h (lines bytes) h, List.map_map]
  rfl

theorem requests_append {a : List UInt8} (h : Ended a) (b : List UInt8) :
    requests (a ++ b) = requests a ++ requests b := by
  rw [requests, lines_append h, List.filter_append]
  rfl

/-- `text` is one line with an object that has the member `id` and either a result or a failure. -/
structure Answers (id : Json) (text : String) : Prop where
  newline_not_mem : '\n' ∉ text.toList
  object : ∃ members : List (String × Json), text = (Json.object members).compact
    ∧ Json.Draft.read? text.toUTF8.toList = some (Json.object members).draft
    ∧ (members.map (·.1)).Nodup
    ∧ ("id", id) ∈ members
    ∧ ("result" ∈ members.map (·.1) ↔ "error" ∉ members.map (·.1))

theorem answers_response (id : Json) (answer : Except Error Json) :
    Answers id (response id answer).compact := by
  refine ⟨(Json.clean_compact _).newline_not_mem, ?_⟩
  unfold response
  cases answer with
  | ok v => exact ⟨_, rfl, Json.read?_compact _, by simp, by simp, by simp⟩
  | error e => exact ⟨_, rfl, Json.read?_compact _, by simp, by simp, by simp⟩

/-- `text` answers the request on the line, and says so by the null id when there is none. -/
def AnswersLine (line : List UInt8) (text : String) : Prop :=
  (∃ r d, Request.read line = .ok r ∧ Json.Draft.read? line = some d ∧ Request.Identified d r.id
      ∧ Answers r.id text)
    ∨ (∃ reason, Request.read line = .error reason) ∧ Answers .null text

theorem answersLine_answerLine (p : Provider κ) (line : List UInt8) :
    AnswersLine line (answerLine engine p line).1.compact := by
  unfold answerLine
  cases hread : Request.read line with
  | error reason =>
    exact Or.inr ⟨⟨reason, hread⟩, answers_response .null (.error (.json (.unplaced reason)))⟩
  | ok r =>
    obtain ⟨d, hd, hid⟩ := Request.identified_of_read hread
    exact Or.inl ⟨r, d, hread, hd, hid, answers_response r.id _⟩

end Answers

/-- A stream is answered line by line, each line by one line and as if it came first. -/
theorem serve_line_by_line {κ : Type} [DecidableEq κ] (engine : Engine κ) (config : Config)
    (logging : Option LogFilter) :
    let p : Provider κ := .start config logging
    (∀ a b, (a = [] ∨ a.getLast? = some 0x0a) →
      serve engine p (a ++ b) = serve engine p a ++ serve engine p b)
    ∧ ∀ bytes,
        (∀ line ∈ lines bytes, 0x0a ∉ line)
        ∧ ((lines bytes).flatMap (· ++ [0x0a])
            = if bytes = [] ∨ bytes.getLast? = some 0x0a then bytes else bytes ++ [0x0a])
        ∧ serve engine p bytes
            = String.join (((lines bytes).filter fun line => !isBlankLine line).map fun line =>
                (answerLine engine p line).1.compact ++ "\n")
        ∧ ∀ line, AnswersLine line (answerLine engine p line).1.compact := by
  intro p
  have h : p.Steady engine.parser config logging.isSome := .start config.cacheSize logging
  refine ⟨fun a b ha => ?_, fun bytes => ⟨newline_not_mem_lines bytes, flatMap_lines bytes,
    serve_eq_join h bytes, answersLine_answerLine p⟩⟩
  rw [serve_eq_join h, serve_eq_join h, serve_eq_join h, requests_append ha, List.map_append,
    String.join_append]

section Example

def silentEngine : Engine Unit := ⟨fun _ _ => none, fun _ => (), fun _ => none⟩

/-- `[7,"version"]`, a request in the form of an array. -/
def askVersion : List UInt8 :=
  [0x5b, 0x37, 0x2c, 0x22, 0x76, 0x65, 0x72, 0x73, 0x69, 0x6f, 0x6e, 0x22, 0x5d]

/-- A request, a blank line, and a line that is left open with an array that is left open. -/
theorem serve_askVersion :
    let p : Provider Unit := .start Config.standard none
    serve silentEngine p (askVersion ++ [0x0a, 0x20, 0x0a] ++ [0x5b])
        = (response (.ofNat 7) (.ok (.text "0.1.0"))).compact ++ "\n" ++
          ((response .null (.error (.json (.unplaced "<syntax>")))).compact ++ "\n")
      ∧ AnswersLine askVersion (response (.ofNat 7) (.ok (.text "0.1.0"))).compact := by
  intro p
  obtain ⟨happend, hlines⟩ := serve_line_by_line silentEngine Config.standard none
  obtain ⟨-, -, hfirst, hanswers⟩ := hlines (askVersion ++ [0x0a, 0x20, 0x0a])
  obtain ⟨-, -, hsecond, -⟩ := hlines [0x5b]
  have hask : Request.read askVersion = .ok ⟨.ofNat 7, "version", .null⟩ := by cbv
  have hversion : (answerLine silentEngine p askVersion).1
      = response (.ofNat 7) (.ok (.text "0.1.0")) := by
    rw [answerLine, hask]
    rfl
  have hread : Request.read [0x5b] = .error "<syntax>" := by cbv
  have hopen : (answerLine silentEngine p [0x5b]).1
      = response .null (.error (.json (.unplaced "<syntax>"))) := by
    rw [answerLine, hread]
  have hrequests : ((lines (askVersion ++ [0x0a, 0x20, 0x0a])).filter fun line =>
      !isBlankLine line) = [askVersion] := by decide +kernel
  have hrequests' : ((lines [0x5b]).filter fun line => !isBlankLine line) = [[0x5b]] := by
    decide +kernel
  refine ⟨?_, hversion ▸ hanswers askVersion⟩
  rw [happend _ _ (Or.inr (by decide)), hfirst, hsecond, hrequests, hrequests', List.map_singleton,
    List.map_singleton, hversion, hopen]
  simp

end Example

end Server

end SyntaxQuery
