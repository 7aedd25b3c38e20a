import SyntaxQuery.Provider

/-!
# Params that a method does not declare

A record is decoded by asking for some of its members by name, and for nothing else, so two objects
with the same values under these names are decoded alike, also where that fails (`Blind`). A call
with either gets one answer (`call_undeclared`). Positions inside params are records themselves, of
which only the column and the row are asked for.
-/

namespace SyntaxQuery

namespace Method

/-- The params that a method asks for. -/
def declared : Method → List String
  | analyze => ["depth", "language", "source"]
  | echo => ["echo"]
  | getArgs => ["language", "source"]
  | getCurrent => ["column", "row", "language", "source"]
  | getParents => ["column", "row", "language", "source"]
  | getRegion => ["start", "end", "language", "source"]
  | help => ["name"]
  | listMethods => ["language", "source"]
  | setLoggingLevel => ["level"]
  | version => []

/-- Values under one name that are the same to a method: the start and the end of a region may be
objects that have the same column and the same row. -/
def SameValue (m : Method) (key : String) (v v' : Json) : Prop :=
  v = v' ∨ m = getRegion ∧ (key = "start" ∨ key = "end") ∧ ∃ ms ms', v = .object ms
    ∧ v' = .object ms' ∧ ∀ inner ∈ ["column", "row"], Json.member? ms inner = Json.member? ms' inner

/-- Both have a member of each declared name or neither has, and with values that are the same to
the method. -/
def SameParams (m : Method) (ms ms' : List (String × Json)) : Prop :=
  ∀ key ∈ m.declared, Option.Rel (m.SameValue key) (Json.member? ms key) (Json.member? ms' key)

theorem named_name (m : Method) : named m.name = .ok m := by
  cases m <;> rfl

theorem SameValue.eq {m : Method} {key : String} {v v' : Json} (h : m.SameValue key v v')
    (hkey : m ≠ getRegion ∨ key ≠ "start" ∧ key ≠ "end") : v = v' := by
  rcases h with h | ⟨hm, hends, -⟩
  · exact h
  · rcases hkey with hkey | ⟨hstart, hend⟩
    · exact absurd hm hkey
    · rcases hends with h | h
      · exact absurd h hstart
      · exact absurd h hend

end Method

namespace Decode

variable {α β : Type} {same : List (String × Json) → List (String × Json) → Prop}

/-- Members that are the same are decoded alike. -/
def Blind (same : List (String × Json) → List (String × Json) → Prop)
    (f : List (String × Json) → Except DecodeError α) : Prop :=
  ∀ ms ms', same ms ms' → f ms = f ms'

theorem Blind.const (x : Except DecodeError α) : Blind same fun _ => x :=
  fun _ _ _ => rfl

theorem Blind.bind {f : List (String × Json) → Except DecodeError α}
    {g : α → List (String × Json) → Except DecodeError β} (hf : Blind same f)
    (hg : ∀ a, Blind same (g a)) : Blind same fun ms => f ms >>= fun a => g a ms := by
  intro ms ms' h
  simp only [hf ms ms' h]
  rcases f ms' with e | a
  · rfl
  · exact hg a ms ms' h

theorem Blind.map {f : List (String × Json) → Except DecodeError α} (hf : Blind same f)
    (g : α → β) : Blind same fun ms => (f ms).map g := by
  intro ms ms' h
  simp only [hf ms ms' h]

/-- A member is decoded alike when the decoder of its value cannot tell the values apart. -/
theorem Blind.member? {name : String} {d : Decoder α} {sameValue : Json → Json → Prop}
    (hd : ∀ v v', sameValue v v' → d v = d v')
    (h : ∀ ms ms', same ms ms' →
      Option.Rel sameValue (Json.member? ms name) (Json.member? ms' name)) :
    Blind same fun ms => Decode.member? ms name d := by
  intro ms ms' hsame
  have hrel := h ms ms' hsame
  simp only [Decode.member?]
  rcases hv : Json.member? ms name with _ | v <;> rcases hv' : Json.member? ms' name with _ | v'
  · rfl
  · simp [hv, hv'] at hrel
  · simp [hv, hv'] at hrel
  · rw [hv, hv', Option.rel_some_some] at hrel
    simp only [hd v v' hrel]

/-- Objects with the same column and the same row are the same position, or fail alike. -/
theorem blind_position :
    Blind (fun ms ms' => ∀ inner ∈ ["column", "row"],
      Json.member? ms inner = Json.member? ms' inner) fun ms => position (.object ms) := by
  have hmember : ∀ inner ∈ ["column", "row"], Blind (fun ms ms' => ∀ inner ∈ ["column", "row"],
      Json.member? ms inner = Json.member? ms' inner) fun ms => Decode.member? ms inner word32 := by
    intro inner hinner ms ms' h
    simp only [Decode.member?, h inner hinner]
  exact .bind (hmember "column" (by simp)) fun _ => .bind (hmember "row" (by simp)) fun _ =>
    .const _

end Decode

namespace Call

open Decode

variable {α : Type} {m : Method}

theorem blind_member? {key : String} (hkey : key ∈ m.declared)
    (hplain : m ≠ .getRegion ∨ key ≠ "start" ∧ key ≠ "end") (d : Decoder α) :
    Blind m.SameParams fun ms => Decode.member? ms key d :=
  .member? (fun _ _ h => by rw [h.eq hplain]) fun _ _ h => h key hkey

theorem blind_end {key : String} (hkey : key ∈ Method.getRegion.declared) :
    Blind Method.getRegion.SameParams fun ms => Decode.member? ms key position := by
  refine .member? (fun v v' h => ?_) fun _ _ h => h key hkey
  rcases h with rfl | ⟨-, -, ms, ms', rfl, rfl, h⟩
  · rfl
  · exact blind_position ms ms' h

theorem blind_source (hlanguage : "language" ∈ m.declared) (hsource : "source" ∈ m.declared) :
    Blind m.SameParams SourceParams.ofMembers :=
  .bind (blind_member? hlanguage (Or.inr (by decide)) _) fun _ =>
    .bind (blind_member? hsource (Or.inr (by decide)) _) fun _ => .const _

theorem blind_point (call : Position → SourceParams → Call)
    (hdeclared : ∀ key ∈ ["column", "row", "language", "source"], key ∈ m.declared)
    (hm : m ≠ .getRegion) : Blind m.SameParams fun ms => pointParams call (.object ms) := by
  simp only [List.forall_mem_cons] at hdeclared
  obtain ⟨hcolumn, hrow, hlanguage, hsource, -⟩ := hdeclared
  exact .bind (blind_member? hcolumn (Or.inl hm) _) fun _ =>
    .bind (blind_member? hrow (Or.inl hm) _) fun _ => .bind (.const _) fun _ =>
      .bind (.const _) fun _ => .bind (blind_source hlanguage hsource) fun _ => .const _

theorem blind_single (name key : String) (d : Decoder α) (hkey : key ∈ m.declared)
    (hm : m ≠ .getRegion) : Blind m.SameParams fun ms => single name key d (.object ms) :=
  .bind (blind_member? hkey (Or.inl hm) d) fun _ => .const _

/-- The params of a method are decoded from its declared ones alone. -/
theorem blind_decode (m : Method) : Blind m.SameParams fun ms => decode m (.object ms) := by
  cases m with
  | analyze =>
    exact .bind (blind_member? (by decide) (Or.inl (by decide)) _) fun _ =>
      .bind (blind_source (by decide) (by decide)) fun _ => .const _
  | echo => exact .map (blind_single "EchoParams" "echo" any (by decide) (by decide)) Call.echo
  | getArgs => exact .map (blind_source (by decide) (by decide)) Call.getArgs
  | getCurrent => exact blind_point .getCurrent (by decide) (by decide)
  | getParents => exact blind_point .getParents (by decide) (by decide)
  | getRegion =>
    exact .bind (blind_end (by decide)) fun _ => .bind (blind_end (by decide)) fun _ =>
      .bind (.const _) fun _ => .bind (.const _) fun _ =>
        .bind (blind_source (by decide) (by decide)) fun _ => .const _
  | help => exact .map (blind_single "HelpParams" "name" text (by decide) (by decide)) Call.help
  | listMethods =>
    exact .bind (blind_member? (by decide) (Or.inl (by decide)) _) fun _ =>
      .bind (blind_member? (by decide) (Or.inl (by decide)) _) fun _ => .const _
  | setLoggingLevel =>
    exact .map (blind_single "LevelParams" "level" text (by decide) (by decide))
      Call.setLoggingLevel
  | version => exact .const _

theorem read_name (m : Method) (params : Json) :
    read m.name params = match decode m params with
      | .ok call => .ok call
      | .error e => .error (.invalidParams m.name e.reason) := by
  rw [read, m.named_name]
  rfl

end Call

namespace Provider

variable {κ : Type} [DecidableEq κ]

/-- What a method does not declare changes neither its answer nor what the provider keeps. -/
theorem call_undeclared (engine : Engine κ) (p : Provider κ) (m : Method) :
    (∀ ms ms', m.SameParams ms ms' →
      p.call engine m.name (.object ms) = p.call engine m.name (.object ms'))
    ∧ p.call engine m.name .null = p.call engine m.name (.object []) := by
  refine ⟨fun ms ms' h => ?_, ?_⟩
  · have hdecode : Call.decode m (.object ms) = Call.decode m (.object ms') :=
      Call.blind_decode m ms ms' h
    simp only [call, Call.read_name, hdecode]
  · cases m <;> rfl

section Example

/-- The params of a region whose end has a bad column, with members that are not asked for. -/
def crowdedParams : List (String × Json) :=
  [("deep", .array [.null]),
   ("end", .object [("column", .number (.integer (-1))), ("row", .ofNat 2), ("width", .ofNat 8)]),
   ("source", .text "x"), ("start", .object [("column", .ofNat 1), ("row", .ofNat 1)])]

/-- The same params with other members that are not asked for. -/
def bareParams : List (String × Json) :=
  [("end", .object [("column", .number (.integer (-1))), ("row", .ofNat 2)]),
   ("source", .text "x"),
   ("start", .object [("at", .bool true), ("column", .ofNat 1), ("row", .ofNat 1)])]

theorem call_undeclared_crowded :
    let p : Provider Unit := .start Config.standard none
    let engine : Engine Unit := ⟨fun _ _ => none, fun _ => (), fun _ => none⟩
    Method.getRegion.SameParams crowdedParams bareParams
      ∧ p.call engine "get_region" (.object crowdedParams)
          = p.call engine "get_region" (.object bareParams)
      ∧ (p.call engine "get_region" (.object bareParams)).1
          = .error (.invalidParams "get_region" "invalid value: integer `-1`, expected u32") := by
  intro p engine
  have hsame : Method.getRegion.SameParams crowdedParams bareParams := by
    have hends : ∀ key, key = "start" ∨ key = "end" →
        Option.Rel (Method.getRegion.SameValue key) (Json.member? crowdedParams key)
          (Json.member? bareParams key) := by
      rintro key (rfl | rfl)
      · exact .some (Or.inr ⟨rfl, by decide, _, _, rfl, rfl, by simp [Json.member?]⟩)
      · exact .some (Or.inr ⟨rfl, by decide, _, _, rfl, rfl, by simp [Json.member?]⟩)
    simp only [Method.SameParams, Method.declared, List.forall_mem_cons]
    exact ⟨hends _ (by decide), hends _ (by decide), .none, .some (Or.inl rfl), by simp⟩
  exact ⟨hsame, (call_undeclared engine p .getRegion).1 _ _ hsame, rfl⟩

end Example

end Provider

end SyntaxQuery
