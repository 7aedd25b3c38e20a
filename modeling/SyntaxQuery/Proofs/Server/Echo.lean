import Mathlib
import SyntaxQuery.Proofs.Json.Value
import SyntaxQuery.Proofs.Server

/-!
# An echo comes back as it was sent

A request on one line is read with the values of its members, in whatever order these are written
(`Request.read_echo`). The value that is to be echoed becomes the result, so the answer is one line
with the id and the value that were sent (`Server.serve_echo`).
-/

namespace SyntaxQuery

namespace Request

variable {i v : Json} {members : List (String × Json)}

/-- The members of a request to echo `v`. -/
def echoMembers (i v : Json) : List (String × Json) :=
  [("id", i), ("method", .text "echo"), ("params", .object [("echo", v)])]

theorem valueOf_draft (hv : v.Plain) (hd : v.depth ≤ Json.maxDepth - 1) :
    valueOf v.draft = .ok v.sorted := by
  unfold valueOf
  rw [hv.value?_draft hd]

theorem depths_of_echo (hmembers : members.Perm (echoMembers i v)) {d : Nat}
    (hdepth : (Json.object members).depth ≤ d + 1) :
    i.depth ≤ d ∧ (Json.object [("echo", v)]).depth ≤ d := by
  obtain ⟨k, hk, hparts⟩ := Json.exists_depth_of_object hdepth
  obtain rfl : d = k := Nat.succ.inj hk
  have hpart : ∀ m ∈ echoMembers i v, m.2.depth ≤ d :=
    fun m hm => hparts m (hmembers.mem_iff.2 hm)
  exact ⟨hpart ("id", i) (by simp [echoMembers]), hpart ("params", _) (by simp [echoMembers])⟩

theorem ofMembers_echo (hmembers : members.Perm (echoMembers i v)) (hi : i.Plain) (hv : v.Plain)
    (hdepth : (Json.object members).depth ≤ Json.maxDepth) :
    ofMembers (Json.memberDrafts members)
      = .ok ⟨i.sorted, "echo", .object [("echo", v.sorted)]⟩ := by
  obtain ⟨hidepth, hparamsdepth⟩ := depths_of_echo hmembers hdepth
  have hid := valueOf_draft hi hidepth
  have hmethod : methodOf (Json.text "echo").draft = .ok "echo" := rfl
  have hparams : valueOf (Json.object [("echo", v)]).draft
      = .ok (.object [("echo", v.sorted)]) := by
    have hplain : (Json.object [("echo", v)]).Plain := .object (by simp) (by simpa using hv)
    rw [valueOf_draft hplain hparamsdepth]
    simp [Json.sorted, Json.sortedMembers]
  -- Each order of the three members is read in turn.
  rw [← List.mem_permutations'] at hmembers
  simp only [echoMembers, List.permutations', List.permutations'Aux, List.flatMap_cons,
    List.flatMap_nil, List.append_nil, List.map_cons, List.map_nil, List.cons_append,
    List.nil_append, List.mem_cons, List.not_mem_nil, or_false] at hmembers
  rw [Json.memberDrafts_eq]
  rcases hmembers with rfl | rfl | rfl | rfl | rfl | rfl
  all_goals
    simp [ofMembers, takeMember, once, hid, hmethod, hparams, Except.map, bind, Except.bind, pure,
      Except.pure]

theorem read_echo (hmembers : members.Perm (echoMembers i v)) (hi : i.Plain) (hv : v.Plain)
    (hdepth : (Json.object members).depth ≤ Json.maxDepth) :
    read (Json.object members).compact.toUTF8.toList
      = .ok ⟨i.sorted, "echo", .object [("echo", v.sorted)]⟩ := by
  unfold read
  rw [Json.read?_compact, Json.draft]
  simp only [ofDraft, ofMembers_echo hmembers hi hv hdepth]

end Request

namespace Server

section Lines

variable {bytes ending : List UInt8}

theorem lines_of_newline_not_mem (hne : bytes ≠ []) (h : 0x0a ∉ bytes) : lines bytes = [bytes] := by
  induction bytes with
  | nil => exact absurd rfl hne
  | cons b bytes ih =>
    simp only [List.mem_cons, not_or] at h
    rw [lines, if_neg (Ne.symm h.1)]
    cases bytes with
    | nil => rfl
    | cons c bytes => rw [ih (by simp) h.2]

theorem lines_append_newline (h : 0x0a ∉ bytes) : lines (bytes ++ [0x0a]) = [bytes] := by
  induction bytes with
  | nil => rfl
  | cons b bytes ih =>
    simp only [List.mem_cons, not_or] at h
    rw [List.cons_append, lines, if_neg (Ne.symm h.1), ih h.2]

theorem exists_octets_object (members : List (String × Json)) :
    ∃ bytes, (Json.object members).compact.toUTF8.toList = 0x7b :: bytes := by
  refine ⟨(Json.compactMembers members ++ "\x7d").toUTF8.toList, ?_⟩
  rw [Json.toList_toUTF8, Json.toList_toUTF8, Json.compact, String.append_assoc,
    String.toList_append, List.flatMap_append]
  rfl

/-- An object on a line is one request, whether the line is ended or left open. -/
theorem lines_object (members : List (String × Json)) (h : ending = [] ∨ ending = [0x0a]) :
    lines ((Json.object members).compact.toUTF8.toList ++ ending)
      = [(Json.object members).compact.toUTF8.toList] := by
  have hnewline : 0x0a ∉ (Json.object members).compact.toUTF8.toList :=
    Json.not_mem_toUTF8 (by decide) (Json.clean_compact _).newline_not_mem
  have hne : (Json.object members).compact.toUTF8.toList ≠ [] := by
    obtain ⟨bytes, hbytes⟩ := exists_octets_object members
    rw [hbytes]
    simp
  rcases h with rfl | rfl
  · rw [List.append_nil]
    exact lines_of_newline_not_mem hne hnewline
  · exact lines_append_newline hnewline

theorem isBlankLine_object (members : List (String × Json)) :
    isBlankLine (Json.object members).compact.toUTF8.toList = false := by
  obtain ⟨bytes, hbytes⟩ := exists_octets_object members
  rw [hbytes]
  rfl

end Lines

section Echo

variable {κ : Type} [DecidableEq κ] (engine : Engine κ) (p : Provider κ) {i v : Json}

theorem call_echo (v : Json) : p.call engine "echo" (.object [("echo", v)]) = (.ok v, p) := rfl

theorem sorted_answer (i v : Json) :
    (Json.object [("id", i), ("result", v)]).sorted
      = .object [("id", i.sorted), ("result", v.sorted)] := by
  rw [Json.sorted, List.mergeSort_of_pairwise]
  · rfl
  · simp [Json.sortedMembers, Json.byName]

/-- An echo is answered by one line, which gives the id and the value back. Only where the members
of an object are out of order they are put into the order of their names. -/
theorem serve_echo (hi : i.Plain) (hv : v.Plain) {members : List (String × Json)}
    (hmembers : members.Perm
      [("id", i), ("method", .text "echo"), ("params", .object [("echo", v)])])
    (hdepth : (Json.object members).depth ≤ 127) {ending : List UInt8}
    (hending : ending = [] ∨ ending = [0x0a]) :
    let answer : Json := .object [("id", i.sorted), ("result", v.sorted)]
    serve engine p ((Json.object members).compact.toUTF8.toList ++ ending) = answer.compact ++ "\n"
      ∧ '\n' ∉ answer.compact.toList
      ∧ Json.read? answer.compact.toUTF8.toList = some answer
      ∧ (i.Ordered → v.Ordered → answer = .object [("id", i), ("result", v)]) := by
  intro answer
  have hanswer : answerLine engine p (Json.object members).compact.toUTF8.toList
      = (answer, p) := by
    unfold answerLine
    rw [Request.read_echo hmembers hi hv hdepth]
    simp only [call_echo]
    rfl
  have hplain : (Json.object [("id", i), ("result", v)]).Plain :=
    .object (by simp) (by simp [hi, hv])
  have hshallow : (Json.object [("id", i), ("result", v)]).depth ≤ Json.maxDepth := by
    obtain ⟨hidepth, hparamsdepth⟩ := Request.depths_of_echo hmembers hdepth
    simp only [Json.depth, Json.membersDepth] at hparamsdepth ⊢
    unfold Json.maxDepth
    omega
  have hread := hplain.read?_compact_sorted hshallow
  rw [sorted_answer] at hread
  refine ⟨?_, (Json.clean_compact _).newline_not_mem, hread, fun hi hv => ?_⟩
  · rw [serve, answers, lines_object members hending, answerLines, isBlankLine_object, hanswer]
    simp [answerLines]
  · simp only [answer, hi.sorted_eq, hv.sorted_eq]

end Echo

section Example

/-- Every kind of escape, a character of two code units, the largest integer, and names that are out
of order. -/
def strangeValue : Json :=
  .object
    [("é", .text "\"\\/\n\t\x08\x0c\r\x01\x7f😀"), ("b", .number (.integer 18446744073709551615)),
     ("", .array [.null, .bool true, .object []])]

theorem plain_strangeValue : strangeValue.Plain := by
  refine .object (by decide) ?_
  simp only [List.forall_mem_cons]
  refine ⟨.text _, .integer (by decide) (by decide), .array ?_, by simp⟩
  simp only [List.forall_mem_cons]
  exact ⟨.null, .bool true, .object (by simp) (by simp), by simp⟩

/-- The strange value is sent with its params in front; null is sent as id and as value. -/
theorem serve_echo_strange :
    let p : Provider Unit := .start Config.standard none
    let least : Json := .number (.integer (-9223372036854775808))
    let answer : Json := .object [("id", least), ("result", .object
      [("", .array [.null, .bool true, .object []]),
       ("b", .number (.integer 18446744073709551615)),
       ("é", .text "\"\\/\n\t\x08\x0c\r\x01\x7f😀")])]
    let nulls : Json := .object [("id", .null), ("result", .null)]
    serve silentEngine p ((Json.object [("params", .object [("echo", strangeValue)]),
        ("method", .text "echo"), ("id", least)]).compact.toUTF8.toList ++ [0x0a])
        = answer.compact ++ "\n"
      ∧ Json.read? answer.compact.toUTF8.toList = some answer
      ∧ serve silentEngine p ((Json.object [("id", .null), ("method", .text "echo"),
          ("params", .object [("echo", .null)])]).compact.toUTF8.toList ++ [])
          = nulls.compact ++ "\n"
      ∧ Json.read? nulls.compact.toUTF8.toList = some nulls := by
  intro p least answer nulls
  have hsorted : Json.object [("id", least.sorted), ("result", strangeValue.sorted)] = answer := by
    cbv
  have hleast : least.Plain := .integer (by decide) (by decide)
  have hperm : [("params", Json.object [("echo", strangeValue)]), ("method", .text "echo"),
      ("id", least)].Perm
        [("id", least), ("method", .text "echo"), ("params", .object [("echo", strangeValue)])] :=
    List.reverse_perm (Request.echoMembers least strangeValue)
  obtain ⟨hserve, -, hread, -⟩ := serve_echo silentEngine p hleast plain_strangeValue hperm
    (by decide) (Or.inr rfl)
  obtain ⟨hserve', -, hread', -⟩ := serve_echo silentEngine p .null .null (.refl _) (by decide)
    (Or.inl rfl)
  rw [hsorted] at hserve hread
  exact ⟨hserve, hread, hserve', hread'⟩

end Example

end Server

end SyntaxQuery
