import SyntaxQuery.Proofs.Cache
import SyntaxQuery.Proofs.Source.Links
import SyntaxQuery.Provider

/-!
# Answers do not depend on what was asked before

The cache of a provider holds only what a fresh parse under its own configuration gives
(`Steady.held`). A call keeps that (`Steady.call`), because a snapshot is stored only after it has
been parsed, and it makes the answer to a call independent of the cache (`Steady.answer_eq`): what
is found was parsed from the same source in the same language, so under the same options. Hence a
session gives the answers that a new provider gives to its requests one by one
(`Steady.calls_eq_map`), whatever the size of the cache and the digest of its keys.
-/

namespace SyntaxQuery

theorem Grammar.name_of_forName {name : String} {g : Grammar} (h : Grammar.forName name = .ok g) :
    g.name = name := by
  unfold Grammar.forName at h
  split at h
  · rename_i g' hg'
    rw [Except.ok.injEq] at h
    subst h
    simpa using List.find?_some hg'
  · simp at h

namespace Provider

section State

variable {κ : Type}

theorem setLevel_cases (engine : Engine κ) (p : Provider κ) (level : String) :
    (p.setLevel engine level).2 = p
      ∨ ∃ f, p.logging.isSome ∧ (p.setLevel engine level).2 = { p with logging := some f } := by
  unfold setLevel
  cases p.logging with
  | none => exact Or.inl rfl
  | some f =>
    cases LogFilter.ofLevel engine.filterFault? level with
    | error e => exact Or.inl rfl
    | ok f' => exact Or.inr ⟨f', rfl, rfl⟩

/-- All that a call does to a provider: it parses one source, or it sets the log filter that the
provider has. -/
theorem perform_cases [DecidableEq κ] (engine : Engine κ) (p : Provider κ) (call : Call) :
    (p.perform engine call).2 = p
      ∨ (∃ origin source language,
          (p.perform engine call).2 = (p.parse engine origin source language).2)
      ∨ ∃ f, p.logging.isSome ∧ (p.perform engine call).2 = { p with logging := some f } := by
  cases call with
  | echo value => exact Or.inl rfl
  | help name => exact Or.inl rfl
  | version => exact Or.inl rfl
  | setLoggingLevel level => exact (setLevel_cases engine p level).imp_right Or.inr
  | listMethods language source =>
    cases source with
    | none => exact Or.inl rfl
    | some source => exact Or.inr (Or.inl ⟨_, _, _, rfl⟩)
  | _ => exact Or.inr (Or.inl ⟨_, _, _, rfl⟩)

theorem setLevel_answer {κ' : Type} {engine : Engine κ} {engine' : Engine κ'} {p : Provider κ}
    {p' : Provider κ'} (hfilter : engine'.filterFault? = engine.filterFault?)
    (h : p.logging.isSome = p'.logging.isSome) (level : String) :
    (p.setLevel engine level).1 = (p'.setLevel engine' level).1 := by
  unfold setLevel
  rw [hfilter]
  cases hl : p.logging <;> cases hl' : p'.logging
  · rfl
  · simp [hl, hl'] at h
  · simp [hl, hl'] at h
  · cases LogFilter.ofLevel engine.filterFault? level <;> rfl

end State

/-- A snapshot is what parsing its own source in its own language gives. -/
def Genuine (parser : Parser) (config : Config) (s : Snapshot) : Prop :=
  ∃ g, Grammar.forName s.language = .ok g
    ∧ Snapshot.parse parser g (config.parseOptions g.name) s.source = .ok s

/-- What parsing a source gives when nothing is remembered. -/
def parseAfresh (parser : Parser) (config : Config) (origin source language : String) :
    Except Error Snapshot :=
  match Grammar.forName language with
  | .error e => .error e
  | .ok g =>
    match Snapshot.parse parser g (config.parseOptions g.name) source with
    | .ok s => .ok s
    | .error e => .error (e.toError origin)

/-- A provider that parses as `config` says, and does so in all that it remembers. -/
structure Steady {κ : Type} (parser : Parser) (config : Config) (logged : Bool)
    (p : Provider κ) : Prop where
  options_eq : ∀ language, p.config.parseOptions language = config.parseOptions language
  isSome_logging : p.logging.isSome = logged
  held : p.cache.Holds fun _ s => Genuine parser config s

namespace Steady

variable {κ : Type} {config : Config} {logged : Bool} {parser : Parser}

theorem start (size : Nat) (logging : Option LogFilter) :
    (Provider.start { config with cacheSize := size } logging : Provider κ).Steady parser config
      logging.isSome :=
  ⟨fun _ => rfl, rfl, Cache.holds_empty size⟩

variable [DecidableEq κ] {engine : Engine κ} {p : Provider κ}

theorem parse (h : p.Steady engine.parser config logged) (origin source language : String) :
    (p.parse engine origin source language).2.Steady engine.parser config logged := by
  unfold Provider.parse
  cases hg : Grammar.forName language with
  | error e => exact h
  | ok g =>
    refine ⟨h.options_eq, h.isSome_logging, h.held.parse engine _ _ _ fun s hs => ?_⟩
    rw [h.options_eq] at hs
    refine ⟨g, ?_, ?_⟩
    · rw [Snapshot.language_of_parse hs, Grammar.name_of_forName hg]
      exact hg
    · rw [Snapshot.source_of_parse hs]
      exact hs

theorem parse_eq (h : p.Steady engine.parser config logged) (origin source language : String) :
    (p.parse engine origin source language).1
      = parseAfresh engine.parser config origin source language := by
  unfold Provider.parse parseAfresh
  cases hg : Grammar.forName language with
  | error e => rfl
  | ok g =>
    simp only [h.options_eq]
    rcases Cache.parse_answer (c := p.cache) engine g (config.parseOptions g.name) source with
      heq | ⟨s, hmem, hconf, heq⟩
    · rw [heq]
      unfold Cache.fresh
      cases Snapshot.parse engine.parser g (config.parseOptions g.name) source <;> rfl
    · -- What is found was parsed by the same grammar, since its language has the same name.
      obtain ⟨g', hg', hs⟩ := h.held _ hmem
      simp only [Cache.confirms, Bool.and_eq_true, decide_eq_true_eq] at hconf
      rw [hconf.2, Grammar.name_of_forName hg, hg, Except.ok.injEq] at hg'
      subst hg'
      rw [hconf.1] at hs
      rw [heq, hs]

theorem perform (h : p.Steady engine.parser config logged) (call : Call) :
    (p.perform engine call).2.Steady engine.parser config logged := by
  rcases perform_cases engine p call with heq | ⟨origin, source, language, heq⟩ | ⟨f, hf, heq⟩
  · rw [heq]
    exact h
  · rw [heq]
    exact h.parse origin source language
  · rw [heq]
    exact ⟨h.options_eq, hf.symm.trans h.isSome_logging, h.held⟩

theorem call (h : p.Steady engine.parser config logged) (name : String) (params : Json) :
    (p.call engine name params).2.Steady engine.parser config logged := by
  unfold Provider.call
  split
  · exact h.perform _
  · exact h

theorem calls (h : p.Steady engine.parser config logged) (requests : List (String × Json)) :
    (p.calls engine requests).2.Steady engine.parser config logged := by
  induction requests generalizing p with
  | nil => exact h
  | cons r rest ih => exact ih (h.call r.1 r.2)

section Answers

variable {κ' : Type} [DecidableEq κ'] {engine' : Engine κ'} {p' : Provider κ'}

theorem withSource_eq (hparser : engine'.parser = engine.parser)
    (h : p.Steady engine.parser config logged) (h' : p'.Steady engine.parser config logged)
    (params : SourceParams) (f : Snapshot → Except Error Json) :
    (p.withSource engine params f).1 = (p'.withSource engine' params f).1 := by
  show (p.parse engine _ _ _).1.bind f = (p'.parse engine' _ _ _).1.bind f
  have heq := h.parse_eq wireOrigin params.source (params.language.getD defaultLanguage)
  rw [← hparser] at h' heq
  rw [heq, h'.parse_eq]

/-- Steady providers give one answer to a call. -/
theorem answer_eq (hparser : engine'.parser = engine.parser)
    (hfilter : engine'.filterFault? = engine.filterFault?)
    (h : p.Steady engine.parser config logged) (h' : p'.Steady engine.parser config logged)
    (name : String) (params : Json) :
    (p.call engine name params).1 = (p'.call engine' name params).1 := by
  have hsource := withSource_eq hparser h h'
  unfold Provider.call
  cases Call.read name params with
  | error e => rfl
  | ok call =>
    cases call with
    | echo value => rfl
    | help name => rfl
    | version => rfl
    | listMethods language source =>
      cases source with
      | none => rfl
      | some source => exact hsource _ _
    | setLoggingLevel level =>
      exact setLevel_answer hfilter (h.isSome_logging.trans h'.isSome_logging.symm) level
    | _ => exact hsource _ _

variable (engine engine') in
theorem calls_eq_map (hparser : engine'.parser = engine.parser)
    (hfilter : engine'.filterFault? = engine.filterFault?)
    (h' : p'.Steady engine.parser config logged) (requests : List (String × Json)) :
    ∀ {p : Provider κ}, p.Steady engine.parser config logged →
      (p.calls engine requests).1 = requests.map fun r => (p'.call engine' r.1 r.2).1 := by
  induction requests with
  | nil => exact fun _ => rfl
  | cons r rest ih =>
    intro p h
    obtain ⟨name, params⟩ := r
    have hrest := ih (h.call name params)
    rw [List.map_cons, ← answer_eq hparser hfilter h h' name params, ← hrest]
    rfl

end Answers

end Steady

theorem calls_cacheSize_eq {κ κ' : Type} [DecidableEq κ] [DecidableEq κ'] (parser : Parser)
    (filterFault? : String → Option String) (digest : List UInt8 → κ) (digest' : List UInt8 → κ')
    (config : Config) (size size' : Nat) (logging : Option LogFilter)
    (requests : List (String × Json)) :
    let engine : Engine κ := ⟨parser, digest, filterFault?⟩
    let engine' : Engine κ' := ⟨parser, digest', filterFault?⟩
    let p : Provider κ := start { config with cacheSize := size } logging
    let p' : Provider κ' := start { config with cacheSize := size' } logging
    (p.calls engine requests).1 = (p'.calls engine' requests).1
      ∧ (p.calls engine requests).1 = requests.map fun r => (p.call engine r.1 r.2).1 := by
  intro engine engine' p p'
  have h : p.Steady parser config logging.isSome := Steady.start size logging
  have h' : p'.Steady parser config logging.isSome := Steady.start size' logging
  have hmap := Steady.calls_eq_map engine engine rfl rfl h requests h
  have hmap' := Steady.calls_eq_map engine' engine rfl rfl h requests h'
  exact ⟨hmap.trans hmap'.symm, hmap⟩

end Provider

end SyntaxQuery
