import Mathlib
import SyntaxQuery.Proofs.Provider
import SyntaxQuery.Proofs.Source.Containers

/-!
# Extra containers only refine regions

Two providers whose configurations allow sources of the same size fail on the same sources, and
their snapshots of a source are alike (`parseAfresh_cases`). So they give one answer to every call
but that for a region, whatever kinds of containers they are told of, and where one of them is told
of more kinds than the other its regions are the same or refine those of the other
(`call_extraContainers`).
-/

namespace SyntaxQuery

section Decoding

variable {α β : Type} {P : β → Prop}

/-- Every value that is decoded has the property. -/
def Decode.Yields (P : β → Prop) (x : Except DecodeError β) : Prop := ∀ b, x = .ok b → P b

namespace Decode.Yields

theorem ok {b : β} (h : P b) : Yields P (.ok b) := by
  rintro b' ⟨⟩
  exact h

theorem bind {x : Except DecodeError α} {f : α → Except DecodeError β}
    (h : ∀ a, Yields P (f a)) : Yields P (x >>= f) := by
  cases x with
  | error e => exact fun b hb => nomatch hb
  | ok a => exact h a

theorem map {x : Except DecodeError α} {f : α → β} (h : ∀ a, P (f a)) : Yields P (x.map f) := by
  cases x with
  | error e => exact fun b hb => nomatch hb
  | ok a => exact ok (h a)

theorem record {name : String} {f : List (String × Json) → Except DecodeError β}
    (h : ∀ members, Yields P (f members)) (v : Json) : Yields P (Decode.record name f v) := by
  cases v with
  | object members => exact h members
  | _ => exact fun b hb => nomatch hb

theorem recordOrArray {name : String} {f : List (String × Json) → Except DecodeError β}
    {g : List Json → Except DecodeError β} (hf : ∀ members, Yields P (f members))
    (hg : ∀ items, Yields P (g items)) (v : Json) :
    Yields P (Decode.recordOrArray name f g v) := by
  cases v with
  | object members => exact hf members
  | array items => exact hg items
  | _ => exact fun b hb => nomatch hb

theorem params {d : Decoder β} (h : ∀ v, Yields P (d v)) (v : Json) :
    Yields P (Decode.params d v) := by
  cases v <;> exact h _

end Decode.Yields

end Decoding

namespace Call

/-- What is asked for by the call. -/
def method : Call → Method
  | analyze .. => .analyze
  | echo .. => .echo
  | getArgs .. => .getArgs
  | getCurrent .. => .getCurrent
  | getParents .. => .getParents
  | getRegion .. => .getRegion
  | help .. => .help
  | listMethods .. => .listMethods
  | setLoggingLevel .. => .setLoggingLevel
  | version => .version

theorem method_of_pointParams (call : Position → SourceParams → Call) {m : Method}
    (h : ∀ place source, (call place source).method = m) (params : Json) :
    Decode.Yields (fun c => c.method = m) (Decode.params (pointParams call) params) := by
  refine .params (fun v => ?_) params
  unfold pointParams
  refine .record (fun members => ?_) v
  iterate 5 refine .bind fun _ => ?_
  exact .ok (h _ _)

theorem method_of_decode (m : Method) (params : Json) :
    Decode.Yields (fun c => c.method = m) (decode m params) := by
  cases m with
  | analyze =>
    refine .params (fun v => ?_) params
    unfold analyzeParams
    refine .record (fun members => ?_) v
    iterate 2 refine .bind fun _ => ?_
    exact .ok rfl
  | getCurrent => exact method_of_pointParams .getCurrent (fun _ _ => rfl) params
  | getParents => exact method_of_pointParams .getParents (fun _ _ => rfl) params
  | getRegion =>
    refine .params (fun v => ?_) params
    unfold regionParams
    refine .record (fun members => ?_) v
    iterate 5 refine .bind fun _ => ?_
    exact .ok rfl
  | listMethods =>
    refine .params (fun v => ?_) params
    unfold listParams
    refine .recordOrArray (fun members => ?_) (fun items => ?_) v
    · iterate 2 refine .bind fun _ => ?_
      exact .ok rfl
    · iterate 3 refine .bind fun _ => ?_
      exact .ok rfl
  | version => exact .ok rfl
  | _ => exact .map fun _ => rfl

theorem name_method_of_read {name : String} {params : Json} {call : Call}
    (h : read name params = .ok call) : call.method.name = name := by
  unfold read Method.named at h
  split at h
  · rename_i m hm
    have hname : m.name = name := by simpa using List.find?_some hm
    simp only [bind, Except.bind] at h
    split at h
    · rename_i call' hcall
      obtain rfl := Except.ok.inj h
      rw [method_of_decode m params _ hcall, hname]
    · simp at h
  · simp [bind, Except.bind] at h

end Call

namespace Provider

section Afresh

variable {parser : Parser} {config config' : Config}

/-- Configurations that allow sources of the same size fail on the same sources. -/
theorem parseAfresh_cases (hmax : config.maxFileSize = config'.maxFileSize)
    (origin source language : String) :
    (∃ e, parseAfresh parser config origin source language = .error e
        ∧ parseAfresh parser config' origin source language = .error e)
      ∨ ∃ grammar tree, grammar.name = language ∧ parser language source = some tree
          ∧ parseAfresh parser config origin source language
              = .ok ⟨grammar.name, source, Snapshot.nodesOf source grammar
                  (config.parseOptions language).extra tree⟩
          ∧ parseAfresh parser config' origin source language
              = .ok ⟨grammar.name, source, Snapshot.nodesOf source grammar
                  (config'.parseOptions language).extra tree⟩ := by
  have hbytes : (config.parseOptions language).maxBytes
      = (config'.parseOptions language).maxBytes := hmax
  unfold parseAfresh
  cases hg : Grammar.forName language with
  | error e => exact Or.inl ⟨e, rfl, rfl⟩
  | ok grammar =>
    obtain rfl := Grammar.name_of_forName hg
    simp only [Snapshot.parse, hbytes]
    split_ifs
    · exact Or.inl ⟨_, rfl, rfl⟩
    · cases htree : parser grammar.name source with
      | none => exact Or.inl ⟨_, rfl, rfl⟩
      | some tree =>
        cases hfault : tree.firstFault? with
        | some i =>
          simp only [hfault]
          exact Or.inl ⟨_, rfl, rfl⟩
        | none =>
          simp only [hfault]
          exact Or.inr ⟨grammar, tree, rfl, rfl, rfl, rfl⟩

theorem parseAfresh_bind_eq (hmax : config.maxFileSize = config'.maxFileSize)
    (origin source language : String) {f : Snapshot → Except Error Json}
    (hf : ∀ s s', s.Alike s' → f s = f s') :
    (parseAfresh parser config origin source language).bind f
      = (parseAfresh parser config' origin source language).bind f := by
  rcases parseAfresh_cases hmax origin source language with
    ⟨e, h, h'⟩ | ⟨grammar, tree, -, -, h, h'⟩
  · rw [h, h']
  · rw [h, h']
    exact hf _ _ (Snapshot.alike_nodesOf grammar.name tree)

end Afresh

section Answers

variable {κ : Type} [DecidableEq κ] {engine : Engine κ} {config config' : Config} {logged : Bool}
  {p p' : Provider κ}

theorem Steady.withSource_answer (h : p.Steady engine.parser config logged) (params : SourceParams)
    (f : Snapshot → Except Error Json) :
    (p.withSource engine params f).1
      = (parseAfresh engine.parser config wireOrigin params.source
          (params.language.getD defaultLanguage)).bind f := by
  rw [← h.parse_eq]
  rfl

theorem Steady.withSource_alike (hmax : config.maxFileSize = config'.maxFileSize)
    (h : p.Steady engine.parser config logged) (h' : p'.Steady engine.parser config' logged)
    (params : SourceParams) {f : Snapshot → Except Error Json}
    (hf : ∀ s s', s.Alike s' → f s = f s') :
    (p.withSource engine params f).1 = (p'.withSource engine params f).1 := by
  rw [h.withSource_answer, h'.withSource_answer]
  exact parseAfresh_bind_eq hmax _ _ _ hf

/-- A call for anything but a region has one answer, whatever the containers. -/
theorem Steady.perform_answer (hmax : config.maxFileSize = config'.maxFileSize)
    (h : p.Steady engine.parser config logged) (h' : p'.Steady engine.parser config' logged)
    {call : Call} (hcall : call.method ≠ .getRegion) :
    (p.perform engine call).1 = (p'.perform engine call).1 := by
  cases call with
  | getRegion start stop source => exact absurd rfl hcall
  | echo value => rfl
  | help name => rfl
  | version => rfl
  | setLoggingLevel level =>
    exact setLevel_answer rfl (h.isSome_logging.trans h'.isSome_logging.symm) level
  | analyze depth source =>
    refine h.withSource_alike hmax h' source fun s s' hs => ?_
    rw [hs.outline]
  | getArgs source =>
    refine h.withSource_alike hmax h' source fun s s' hs => ?_
    rw [hs.functionArguments]
  | getCurrent place source =>
    refine h.withSource_alike hmax h' source fun s s' hs => ?_
    rw [hs.nodeReportAt]
  | getParents place source =>
    refine h.withSource_alike hmax h' source fun s s' hs => ?_
    rw [hs.scopesAt]
  | listMethods language source =>
    cases source with
    | none => rfl
    | some source =>
      refine h.withSource_alike hmax h' ⟨language, source⟩ fun s s' hs => ?_
      rw [hs.names]

theorem Steady.region_answer (hmax : config.maxFileSize = config'.maxFileSize)
    (h : p.Steady engine.parser config logged) (h' : p'.Steady engine.parser config' logged)
    (start stop : Position) {source : SourceParams} {language : String}
    (hlanguage : source.language.getD defaultLanguage = language)
    (hmore : ∀ k ∈ (config.parseOptions language).extra, k ∈ (config'.parseOptions language).extra)
    (hranges : engine.parser.Ranges language source.source) :
    (p.perform engine (.getRegion start stop source)).1
        = (p'.perform engine (.getRegion start stop source)).1
      ∨ ∃ tree report report', engine.parser language source.source = some tree
          ∧ (p.perform engine (.getRegion start stop source)).1 = .ok report.toJson
          ∧ (p'.perform engine (.getRegion start stop source)).1 = .ok report'.toJson
          ∧ RegionReport.Refines source.source tree (config.parseOptions language).extra
              (config'.parseOptions language).extra report report' := by
  have hp := h.withSource_answer source fun s => do
    return (← s.regionReportAt start stop).toJson
  have hp' := h'.withSource_answer source fun s => do
    return (← s.regionReportAt start stop).toJson
  simp only [Provider.perform, hp, hp', hlanguage]
  rcases parseAfresh_cases hmax wireOrigin source.source language with
    ⟨e, he, he'⟩ | ⟨grammar, tree, -, htree, hs, hs'⟩
  · exact Or.inl (by rw [he, he'])
  · rw [hs, hs']
    rcases Snapshot.regionReportAt_cases grammar hmore (hranges tree htree) start stop with
      hsame | ⟨report, report', hr, hr', hrefines⟩
    · exact Or.inl (by simp only [Except.bind, hsame])
    · refine Or.inr ⟨tree, report, report', htree, ?_, ?_, hrefines⟩
      · simp only [Except.bind, hr]
        rfl
      · simp only [Except.bind, hr']
        rfl

end Answers

/-- Extra containers matter to `get_region` alone, and there they only split nodes. The providers
may have answered other calls before. -/
theorem call_extraContainers {κ : Type} [DecidableEq κ] (engine : Engine κ)
    (config config' : Config) (logging : Option LogFilter) (history history' : List (String × Json))
    (hmax : config.maxFileSize = config'.maxFileSize) :
    let p := ((start config logging : Provider κ).calls engine history).2
    let p' := ((start config' logging : Provider κ).calls engine history').2
    (∀ name params, name ≠ "get_region" →
      (p.call engine name params).1 = (p'.call engine name params).1)
    ∧ ∀ params start stop source language,
        Call.read "get_region" params = .ok (.getRegion start stop source) →
        source.language.getD defaultLanguage = language →
        (∀ k ∈ (config.parseOptions language).extra, k ∈ (config'.parseOptions language).extra) →
        engine.parser.Ranges language source.source →
        (p.call engine "get_region" params).1 = (p'.call engine "get_region" params).1
          ∨ ∃ tree report report', engine.parser language source.source = some tree
              ∧ (p.call engine "get_region" params).1 = .ok report.toJson
              ∧ (p'.call engine "get_region" params).1 = .ok report'.toJson
              ∧ RegionReport.Refines source.source tree (config.parseOptions language).extra
                  (config'.parseOptions language).extra report report' := by
  intro p p'
  have h : p.Steady engine.parser config logging.isSome :=
    (Steady.start config.cacheSize logging).calls history
  have h' : p'.Steady engine.parser config' logging.isSome :=
    (Steady.start config'.cacheSize logging).calls history'
  refine ⟨fun name params hname => ?_, ?_⟩
  · unfold call
    cases hread : Call.read name params with
    | error e => rfl
    | ok call =>
      refine h.perform_answer hmax h' fun hregion => hname ?_
      rw [← Call.name_method_of_read hread, hregion]
      rfl
  · intro params start stop source language hread hlanguage hmore hranges
    simp only [call, hread]
    exact h.region_answer hmax h' start stop hlanguage hmore hranges

section Example

/-- The tree of `x<é<z`. -/
def comparison : Concrete :=
  .node (Concrete.soundInfo "module" true none 0 6 (0, 0) (0, 6))
    [.node (Concrete.soundInfo "expression_statement" true none 0 6 (0, 0) (0, 6))
      [.node (Concrete.soundInfo "comparison_operator" true none 0 6 (0, 0) (0, 6))
        [.node (Concrete.soundInfo "identifier" true none 0 1 (0, 0) (0, 1)) [],
         .node (Concrete.soundInfo "<" false (some "operators") 1 2 (0, 1) (0, 2)) [],
         .node (Concrete.soundInfo "identifier" true none 2 4 (0, 2) (0, 4)) [],
         .node (Concrete.soundInfo "<" false (some "operators") 4 5 (0, 4) (0, 5)) [],
         .node (Concrete.soundInfo "identifier" true none 5 6 (0, 5) (0, 6)) []]]]

def comparisonEngine : Engine Unit := ⟨fun _ _ => some comparison, fun _ => (), fun _ => none⟩

def comparisonConfig : Config :=
  { Config.standard with containers := [("python", ["comparison_operator"])] }

/-- From `x` to `é`. -/
def comparisonParams : Json :=
  .object
    [("end", .object [("column", .ofNat 3), ("row", .ofNat 1)]), ("source", .text "x<é<z"),
     ("start", .object [("column", .ofNat 1), ("row", .ofNat 1)])]

def comparisonReports : RegionReport × RegionReport :=
  (⟨.node 2, [⟨"comparison_operator", ⟨⟨1, 1⟩, ⟨1, 5⟩⟩, "x<é<z"⟩], "x<é<z"⟩,
   ⟨.siblings [3, 4],
     [⟨"identifier", ⟨⟨1, 1⟩, ⟨1, 1⟩⟩, "x"⟩, ⟨"identifier", ⟨⟨1, 3⟩, ⟨1, 3⟩⟩, "é"⟩], "x<é"⟩)

theorem call_extraContainers_comparison :
    let p : Provider Unit := start Config.standard none
    let p' : Provider Unit := start comparisonConfig none
    (p.call comparisonEngine "get_region" comparisonParams).1 = .ok comparisonReports.1.toJson
    ∧ (p'.call comparisonEngine "get_region" comparisonParams).1 = .ok comparisonReports.2.toJson
    ∧ ∃ report report', report.toJson = comparisonReports.1.toJson
        ∧ report'.toJson = comparisonReports.2.toJson
        ∧ RegionReport.Refines "x<é<z" comparison [] ["comparison_operator"] report report' := by
  intro p p'
  have hp : (p.call comparisonEngine "get_region" comparisonParams).1
      = .ok comparisonReports.1.toJson := by cbv
  have hp' : (p'.call comparisonEngine "get_region" comparisonParams).1
      = .ok comparisonReports.2.toJson := by cbv
  have hplaced : comparison.Placed "x<é<z" := Concrete.placed_iff_preorder.2 (by decide)
  have hranges : comparisonEngine.parser.Ranges "python" "x<é<z" := by
    intro tree htree
    obtain rfl := Option.some.inj htree
    exact .of_placed hplaced
  obtain ⟨-, hregion⟩ := call_extraContainers comparisonEngine Config.standard comparisonConfig
    none [] [] rfl
  have hcases := hregion comparisonParams ⟨1, 1⟩ ⟨1, 3⟩ ⟨none, "x<é<z"⟩ "python" rfl rfl
    (fun k hk => absurd hk List.not_mem_nil) hranges
  simp only [calls] at hcases
  rw [hp, hp'] at hcases
  rcases hcases with hsame | ⟨tree, report, report', htree, hr, hr', hrefines⟩
  · simp [comparisonReports, RegionReport.toJson, Region.kind] at hsame
  · obtain rfl := Option.some.inj htree
    exact ⟨hp, hp', report, report', (Except.ok.inj hr).symm, (Except.ok.inj hr').symm, hrefines⟩

end Example

end Provider

end SyntaxQuery
