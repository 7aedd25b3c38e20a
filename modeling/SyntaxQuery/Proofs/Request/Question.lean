import SyntaxQuery.Proofs.Json.Value
import SyntaxQuery.Proofs.Provider
import SyntaxQuery.Proofs.Request.Declared

/-!
# Questions about a source

Six methods ask about one source, which comes with the name of its language. A request of such a
method is answered by parsing the source and asking its snapshot (`call_eq`). Where the source came
from shows in the messages of failures, not in their kinds (`agree_parseAfresh`). Every answer has
few levels, no reals and its members in order (`fits_answer`), so once written it can be read back.
-/

namespace SyntaxQuery

/-- What can be asked about a source. -/
inductive Question where
  | analyze (depth : Option UInt64)
  | args
  | methods
  | point (place : Position)
  | region (start stop : Position)
  | scopes (place : Position)
deriving DecidableEq, Repr

namespace Question

/-- The method that asks it. -/
def method : Question → Method
  | analyze _ => .analyze
  | args => .getArgs
  | methods => .listMethods
  | point _ => .getCurrent
  | region .. => .getRegion
  | scopes _ => .getParents

/-- The params of a request that asks it. -/
def params (q : Question) (language source : String) : Json :=
  match q with
  | analyze (some depth) =>
    .object [("depth", .ofNat depth.toNat), ("language", .text language), ("source", .text source)]
  | analyze none | args | methods =>
    .object [("language", .text language), ("source", .text source)]
  | point place | scopes place =>
    .object [("column", .ofNat place.column.toNat), ("language", .text language),
      ("row", .ofNat place.row.toNat), ("source", .text source)]
  | region start stop =>
    .object [("end", stop.toJson), ("language", .text language), ("source", .text source),
      ("start", start.toJson)]

/-- The call that asks it. -/
def call (q : Question) (language source : String) : Call :=
  match q with
  | analyze depth => .analyze (depth.map UInt64.toNat) ⟨some language, source⟩
  | args => .getArgs ⟨some language, source⟩
  | methods => .listMethods (some language) (some source)
  | point place => .getCurrent place ⟨some language, source⟩
  | region start stop => .getRegion start stop ⟨some language, source⟩
  | scopes place => .getParents place ⟨some language, source⟩

/-- What a snapshot answers. -/
def answer (q : Question) (s : Snapshot) : Except Error Json :=
  match q with
  | analyze depth => .ok (.text (s.outline ((depth.map UInt64.toNat).getD Snapshot.defaultDepth)))
  | args => do return .array ((← s.functionArguments).map Argument.toJson)
  | methods => .ok (.ofTexts (Method.names (some s)))
  | point place => do return (← s.nodeReportAt place).toJson
  | region start stop => do return (← s.regionReportAt start stop).toJson
  | scopes place => do return .array ((← s.scopesAt place).map Scope.toJson)

section Wire

open Decode

theorem natural_ofNat {limit n : Nat} (h : n ≤ limit) (expected : String) :
    natural limit expected (.ofNat n) = .ok n := by
  have hrange : (0 : Int) ≤ n ∧ (n : Int) ≤ limit := by omega
  simp [natural, Json.ofNat, hrange]

theorem word32_ofNat (n : UInt32) : word32 (.ofNat n.toNat) = .ok n := by
  simp [word32, natural_ofNat (Text.toNat_le_maxWord32 n), Except.map]

theorem nullable_word64 (n : UInt64) :
    nullable word64 (.ofNat n.toNat) = .ok (some n.toNat) := by
  show (word64 (.ofNat n.toNat)).map some = _
  rw [word64, natural_ofNat (Text.toNat_le_maxWord64 n)]
  rfl

theorem position_toJson (p : Position) : position p.toJson = .ok p := by
  simp [position, recordOrArray, Position.toJson, Decode.member?, Json.member?, word32_ofNat,
    required, bind, Except.bind, Except.map, pure, Except.pure]

variable {members : List (String × Json)} {language source : String}

theorem member?_eq_ok {α : Type} {name : String} {d : Decoder α} {v : Json} {a : α}
    (h : Json.member? members name = some v) (hd : d v = .ok a) :
    Decode.member? members name d = .ok (some a) := by
  simp [Decode.member?, h, hd, Except.map]

theorem ofMembers_eq_ok (hlanguage : Json.member? members "language" = some (.text language))
    (hsource : Json.member? members "source" = some (.text source)) :
    SourceParams.ofMembers members = .ok ⟨some language, source⟩ := by
  have hnullable : nullable text (.text language) = .ok (some language) := rfl
  have htext : text (.text source) = .ok source := rfl
  rw [SourceParams.ofMembers, member?_eq_ok hlanguage hnullable, member?_eq_ok hsource htext]
  rfl

theorem pointParams_eq_ok (call : Position → SourceParams → Call) (place : Position) :
    Call.pointParams call ((point place).params language source)
      = .ok (call place ⟨some language, source⟩) := by
  simp only [Call.pointParams, params, record]
  rw [member?_eq_ok rfl (word32_ofNat place.column), member?_eq_ok rfl (word32_ofNat place.row),
    ofMembers_eq_ok rfl rfl]
  rfl

/-- The params of a question are decoded to its call. -/
theorem decode_params (q : Question) (language source : String) :
    Call.decode q.method (q.params language source) = .ok (q.call language source) := by
  cases q with
  | analyze depth =>
    cases depth with
    | none => rfl
    | some depth =>
      simp only [method, Call.decode, Decode.params, params, Call.analyzeParams, record]
      rw [member?_eq_ok rfl (nullable_word64 depth), ofMembers_eq_ok rfl rfl]
      rfl
  | args => rfl
  | methods => rfl
  | point place => exact pointParams_eq_ok .getCurrent place
  | region start stop =>
    simp only [method, Call.decode, Decode.params, params, Call.regionParams, record]
    rw [member?_eq_ok rfl (position_toJson stop), member?_eq_ok rfl (position_toJson start),
      ofMembers_eq_ok rfl rfl]
    rfl
  | scopes place => exact pointParams_eq_ok .getParents place

variable {κ : Type} [DecidableEq κ] (engine : Engine κ) (p : Provider κ)

theorem perform_call (q : Question) (language source : String) :
    (p.perform engine (q.call language source)).1
      = (p.parse engine Provider.wireOrigin source language).1.bind q.answer := by
  cases q <;> rfl

/-- A request of a question is answered by parsing its source and asking the snapshot. -/
theorem call_eq (q : Question) (language source : String) :
    (p.call engine q.method.name (q.params language source)).1
      = (p.parse engine Provider.wireOrigin source language).1.bind q.answer := by
  rw [Provider.call, Call.read_name, q.decode_params, ← perform_call]

end Wire

end Question

section Origin

/-- The same value, or failures of one kind. -/
inductive Agree {α : Type} : Except Error α → Except Error α → Prop
  | ok (a : α) : Agree (.ok a) (.ok a)
  | error {e e' : Error} (h : e.kind = e'.kind) : Agree (.error e) (.error e')

theorem Agree.refl {α : Type} : ∀ x : Except Error α, Agree x x
  | .ok a => .ok a
  | .error _ => .error rfl

theorem Agree.bind {α β : Type} {x y : Except Error α} (h : Agree x y) (f : α → Except Error β) :
    Agree (x.bind f) (y.bind f) := by
  cases h with
  | ok a => exact .refl (f a)
  | error h => exact .error h

theorem Provider.agree_parseAfresh (parser : Parser) (config : Config)
    (origin origin' source language : String) :
    Agree (parseAfresh parser config origin source language)
      (parseAfresh parser config origin' source language) := by
  unfold parseAfresh
  cases Grammar.forName language with
  | error e => exact .error rfl
  | ok g =>
    simp only []
    cases Snapshot.parse parser g (config.parseOptions g.name) source with
    | ok s => exact .ok s
    | error e => exact .error (by cases e <;> rfl)

end Origin

namespace Json

/-- At most `d` levels, no reals, integers of a word and members in order. -/
structure Fits (d : Nat) (v : Json) : Prop where
  plain : v.Plain
  ordered : v.Ordered
  depth_le : v.depth ≤ d

namespace Fits

variable {d d' : Nat} {v : Json}

theorem mono (h : v.Fits d) (hd : d ≤ d') : v.Fits d' :=
  ⟨h.plain, h.ordered, Nat.le_trans h.depth_le hd⟩

theorem null : Json.null.Fits d :=
  ⟨.null, .null, Nat.zero_le d⟩

theorem text (s : String) : (Json.text s).Fits d :=
  ⟨.text s, .text s, Nat.zero_le d⟩

theorem ofNat (n : UInt32) : (Json.ofNat n.toNat).Fits d := by
  have hn := n.toNat_lt
  exact ⟨.integer (by omega) (by omega), .number _, Nat.zero_le d⟩

theorem array {items : List Json} (h : ∀ v ∈ items, v.Fits d) : (Json.array items).Fits (d + 1) :=
  ⟨.array fun v hv => (h v hv).plain, .array fun v hv => (h v hv).ordered,
    Nat.succ_le_succ (itemsDepth_le_iff.2 fun v hv => (h v hv).depth_le)⟩

theorem object {members : List (String × Json)} (names : List String)
    (hnames : names.Pairwise (· < ·)) (heq : members.map (·.1) = names)
    (h : ∀ m ∈ members, m.2.Fits d) : (Json.object members).Fits (d + 1) := by
  subst heq
  exact ⟨.object (hnames.imp fun hlt => Std.ne_of_lt hlt) fun m hm => (h m hm).plain,
    .object (List.pairwise_map.1 hnames) fun m hm => (h m hm).ordered,
    Nat.succ_le_succ (membersDepth_le_iff.2 fun m hm => (h m hm).depth_le)⟩

theorem map {α : Type} {f : α → Json} (h : ∀ a, (f a).Fits d) (as : List α) :
    (Json.array (as.map f)).Fits (d + 1) :=
  array (List.forall_mem_map.2 fun a _ => h a)

end Fits

end Json

namespace Question

open Json

theorem fits_position (p : Position) : p.toJson.Fits 1 :=
  .object ["column", "row"] (by decide) rfl (by simp [Fits.ofNat])

theorem fits_span (s : Span) : s.toJson.Fits 2 :=
  .object ["bottom_right", "top_left"] (by decide) rfl (by simp [fits_position])

theorem fits_nodeReport (r : NodeReport) : r.toJson.Fits 3 :=
  .object ["span", "text", "type_tag"] (by decide) rfl (by simp [Fits.text, fits_span])

theorem fits_scope (s : Scope) : s.toJson.Fits 3 :=
  .object ["span", "type_tag"] (by decide) rfl (by simp [Fits.text, fits_span])

theorem fits_argument (a : Argument) : a.toJson.Fits 1 := by
  have hdefault : (Json.ofOption .text a.default).Fits 0 := by
    cases a.default with
    | none => exact .null
    | some s => exact .text s
  exact .array (by simp [Fits.text, hdefault])

theorem fits_regionReport (r : RegionReport) : r.toJson.Fits 5 :=
  .object ["kind", "nodes", "text"] (by decide) rfl
    (by simp [Fits.text, Fits.map fits_nodeReport])

theorem fits_of_bind {α : Type} {x : Except Error α} {f : α → Json} {d : Nat} {v : Json}
    (hf : ∀ a, (f a).Fits d) (h : (x >>= fun a => pure (f a)) = .ok v) : v.Fits d := by
  rcases x with e | a
  · simp [bind, Except.bind] at h
  · obtain rfl : f a = v := Except.ok.inj h
    exact hf a

theorem fits_answer {q : Question} {s : Snapshot} {v : Json} (h : q.answer s = .ok v) :
    v.Fits 5 := by
  cases q with
  | analyze depth =>
    obtain rfl := Except.ok.inj h
    exact .text _
  | args =>
    exact fits_of_bind (fun arguments => (Fits.map fits_argument arguments).mono (by decide)) h
  | methods =>
    obtain rfl := Except.ok.inj h
    exact (Fits.map (d := 0) Fits.text _).mono (by decide)
  | point place => exact fits_of_bind (fun r => (fits_nodeReport r).mono (by decide)) h
  | region start stop => exact fits_of_bind fits_regionReport h
  | scopes place =>
    exact fits_of_bind (fun scopes => (Fits.map fits_scope scopes).mono (by decide)) h

theorem fits_call {κ : Type} [DecidableEq κ] {engine : Engine κ} {p : Provider κ} {q : Question}
    {language source : String} {v : Json}
    (h : (p.call engine q.method.name (q.params language source)).1 = .ok v) : v.Fits 5 := by
  rw [call_eq] at h
  generalize (p.parse engine Provider.wireOrigin source language).1 = parsed at h
  cases parsed with
  | error e => simp [Except.bind] at h
  | ok s => exact fits_answer h

end Question

end SyntaxQuery
