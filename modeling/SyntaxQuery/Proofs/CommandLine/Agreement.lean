import Mathlib
import SyntaxQuery.CommandLine.Run
import SyntaxQuery.LogFilter.Directive
import SyntaxQuery.Proofs.CommandLine.Arguments
import SyntaxQuery.Proofs.Json.Pretty
import SyntaxQuery.Proofs.Request.Question
import SyntaxQuery.Proofs.Source.Layout

/-!
# The command line and the wire agree

A question can be put to a file on the command line in many ways (`Wording`); all of them are read
as one command (`Wording.read_arguments`). Running it parses the text of the file and asks the
snapshot (`output_eq`), and so does answering the request of the question. So the command succeeds
exactly when the request does, and then writes its result (`invoke_conveys`).
-/

namespace SyntaxQuery

namespace Question

open CommandLine

/-- The word for its command. -/
def word : Question → String
  | analyze _ => "analyze"
  | args => "args"
  | methods => "methods"
  | point _ => "point"
  | region .. => "region"
  | scopes _ => "scopes"

/-- The positions it names. -/
def places : Question → List Position
  | point place | scopes place => [place]
  | region start stop => [start, stop]
  | _ => []

/-- The command that asks it about a file. -/
def command (q : Question) (file : String) (language : Option String) : Command :=
  match q with
  | analyze depth =>
    .analyze file ((depth.map UInt64.toNat).getD Snapshot.defaultDepth) language
  | args => .args file language
  | methods => .methods (some file) none language
  | point place => .point file place language
  | region start stop => .region file start stop language
  | scopes place => .scopes file place language

/-- The options of its command, besides those of the program. -/
def valued : Question → List (String × ValueKind)
  | analyze _ => [("depth", .depth), ("language", .text)]
  | methods => [("describe", .text), ("language", .text)]
  | args | point _ | region .. | scopes _ => [("language", .text)]

/-- What its command accepts. -/
def accepted (q : Question) : Accepted :=
  .command q.valued (.file :: q.places.map fun _ => .place)

theorem ofName?_word (q : Question) : Accepted.ofName? q.word = some q.accepted := by
  cases q <;> rfl

theorem named_accepted (q : Question) : q.accepted.Named := by
  have hnamed : (Accepted.command q.valued []).Named := by
    cases q <;> simp only [valued] <;> decide
  exact hnamed

theorem word_ne_help (q : Question) : q.word ≠ "help" := by
  cases q <;> simp [word]

theorem plain_word (q : Question) : Plain q.word := by
  cases q <;> simp [Plain, word]

theorem operandValues?_places {file : String} (hfile : file ≠ "") (q : Question) :
    operandValues? q.accepted.operands (file :: q.places.map Position.toText)
      = some (.file file :: q.places.map .place) := by
  cases q <;> simp [accepted, Accepted.command, places, operandValues?, ValueKind.read?, hfile,
    Position.read_toText, Except.toOption]

end Question

namespace CommandLine

/-- A level or the text of a filter, where `fault?` tells why a text is no filter. -/
def IsLevel (fault? : String → Option String) (s : String) : Prop :=
  fault? (LogFilter.directive s) = none

instance (fault? : String → Option String) (s : String) : Decidable (IsLevel fault? s) :=
  inferInstanceAs (Decidable (fault? (LogFilter.directive s) = none))

/-- An option of the program. -/
def ProgramOption : String × Option String → Prop
  | (name, none) => name = "json" ∨ name = "no-color"
  | (name, some _) => name = "log-level"

/-- An option of the command that asks a question: the language, or the depth it asks for. -/
def QuestionOption (q : Question) (language : String) : String × Option String → Prop
  | (_, none) => False
  | (name, some s) => name = "language" ∧ s = language
      ∨ name = "depth" ∧ ∃ d : UInt64, q = .analyze (some d) ∧ Text.Numeral.Spells s.toList d.toNat

/-- A way to put a question to a file on the command line, so that the answer is JSON and the
language is named. -/
structure Wording (q : Question) (file language : String) where
  /-- The arguments before the command, which are options of the program. -/
  before : List String
  optionsBefore : List (String × Option String)
  /-- The arguments after the command, up to two dashes alone. -/
  after : List String
  optionsAfter : List (String × Option String)
  operands : List String
  /-- What follows two dashes alone, if there are any; all of it are operands. -/
  behind : Option (List String)
  spelled_before : Spelled before optionsBefore []
  spelled_after : Spelled after optionsAfter operands
  nodup_before : (optionsBefore.map (·.1)).Nodup
  nodup_after : (optionsAfter.map (·.1)).Nodup
  allowed_before : ∀ o ∈ optionsBefore, ProgramOption o
  allowed_after : ∀ o ∈ optionsAfter, ProgramOption o ∨ QuestionOption q language o
  operands_eq : operands ++ behind.getD [] = file :: q.places.map Position.toText
  file_ne : file ≠ ""
  json_mem : ("json", none) ∈ optionsBefore ∨ ("json", none) ∈ optionsAfter
  language_mem : ("language", some language) ∈ optionsAfter
  depth_mem : ∀ d, q = .analyze (some d) → ∃ s, ("depth", some s) ∈ optionsAfter

namespace Wording

variable {q : Question} {file language : String} (w : Wording q file language)

/-- The arguments from two dashes alone on. -/
def ending : List String :=
  match w.behind with
  | none => []
  | some ys => "--" :: ys

def arguments : List String := w.before ++ q.word :: (w.after ++ w.ending)

/-- It asks for a log filter by the level `s`. -/
def AsksLevel (s : String) : Prop :=
  ("log-level", some s) ∈ w.optionsBefore ∨ ("log-level", some s) ∈ w.optionsAfter

end Wording

section Options

variable {q : Question} {language : String} {o : String × Option String}

theorem takes_of_programOption (h : ProgramOption o) (valued : List (String × ValueKind))
    (operands : List ValueKind) : (Accepted.command valued operands).Takes o := by
  obtain ⟨name, _ | s⟩ := o
  · rcases h with rfl | rfl <;> simp [Accepted.Takes, Accepted.command, Accepted.program]
  · obtain rfl : name = "log-level" := h
    simp [Accepted.Takes, Accepted.value?, Accepted.command, Accepted.program, ValueKind.read?]

theorem value?_language (q : Question) (s : String) :
    q.accepted.value? "language" s = some (.text s) := by
  cases q <;> rfl

theorem value?_depth {d : UInt64} {s : String} (depth : Option UInt64)
    (h : Text.Numeral.Spells s.toList d.toNat) :
    (Question.analyze depth).accepted.value? "depth" s = some (.depth d.toNat) := by
  have hread := Text.Numeral.read_eq_ok_iff.2 ⟨h, Text.toNat_le_maxWord64 d⟩
  show (ValueKind.read? .depth s) = _
  simp [ValueKind.read?, hread, Except.toOption]

theorem takes_of_questionOption (h : QuestionOption q language o) : q.accepted.Takes o := by
  have hswitches : q.accepted.switches = Accepted.program.switches := rfl
  obtain ⟨name, _ | s⟩ := o
  · exact absurd h id
  · rw [Accepted.Takes, hswitches]
    rcases h with ⟨rfl, -⟩ | ⟨rfl, d, rfl, hs⟩
    · exact ⟨by decide, by simp [value?_language]⟩
    · exact ⟨by decide, by simp [value?_depth _ hs]⟩

end Options

namespace Wording

variable {q : Question} {file language : String} (w : Wording q file language)

theorem takes_before : ∀ o ∈ w.optionsBefore, Accepted.program.Takes o :=
  fun o ho => takes_of_programOption (w.allowed_before o ho) [] []

theorem takes_after : ∀ o ∈ w.optionsAfter, q.accepted.Takes o := by
  intro o ho
  rcases w.allowed_after o ho with h | h
  · exact takes_of_programOption h _ _
  · exact takes_of_questionOption h

/-- The options behind the command that have a value. -/
theorem valued_after {name s : String} (h : (name, some s) ∈ w.optionsAfter) :
    name = "log-level" ∨ (name = "language" ∧ s = language)
      ∨ name = "depth" ∧ ∃ d : UInt64, q = .analyze (some d)
        ∧ Text.Numeral.Spells s.toList d.toNat :=
  w.allowed_after _ h

theorem depth_taken {depth : Option UInt64} {t : Taken} {vs : List Value}
    (w : Wording (.analyze depth) file language)
    (ht : Tracks (Question.analyze depth).accepted t w.optionsAfter.reverse vs) :
    t.depth = (depth.map UInt64.toNat).getD Snapshot.defaultDepth := by
  cases depth with
  | none =>
    have hnone : t.value? "depth" = none := by
      refine ht.value?_eq_none fun s hs => ?_
      simpa using w.valued_after (List.mem_reverse.1 hs)
    simp [Taken.depth, hnone]
  | some d =>
    obtain ⟨s, hs⟩ := w.depth_mem d rfl
    have hspells : Text.Numeral.Spells s.toList d.toNat := by
      simpa using w.valued_after hs
    have hvalue : t.value? "depth" = some (.depth d.toNat) :=
      (ht.values _ _).2 ⟨s, List.mem_reverse.2 hs, value?_depth _ hspells⟩
    simp [Taken.depth, hvalue]

/-- What is taken behind the command makes it the one that asks the question. -/
theorem commandOf_taken {t : Taken}
    (ht : Tracks q.accepted t w.optionsAfter.reverse (.file file :: q.places.map .place)) :
    commandOf q.word t = .ok (q.command file (some language)) := by
  have hlanguage : t.text? "language" = some language := by
    refine (ht.text?_eq_some_iff ?_).2 (List.mem_reverse.2 w.language_mem)
    cases q <;> rfl
  have hoperands := ht.operands
  unfold commandOf
  cases q with
  | analyze depth =>
    simp [Question.word, Question.command, hlanguage, hoperands, Question.places, w.depth_taken ht]
  | methods =>
    have hdescribe : t.text? "describe" = none := by
      refine ht.text?_eq_none fun s hs => ?_
      simpa using w.valued_after (List.mem_reverse.1 hs)
    simp [Question.word, Question.command, hlanguage, hoperands, Question.places, hdescribe]
  | _ => simp [Question.word, Question.command, hlanguage, hoperands, Question.places]

theorem ending_cases :
    w.ending = [] ∧ w.behind.getD [] = [] ∨ w.ending = "--" :: w.behind.getD [] := by
  unfold ending
  cases w.behind with
  | none => exact Or.inl ⟨rfl, rfl⟩
  | some ys => exact Or.inr rfl

/-- It is read as the command that asks the question, with an answer in JSON. -/
theorem read_arguments :
    ∃ options, read w.arguments = .ok (.run options (q.command file (some language)))
      ∧ options.json ∧ ∀ level ∈ options.logLevel, w.AsksLevel level := by
  obtain ⟨before, hbefore, htb⟩ :=
    exists_takeProgram w.spelled_before w.nodup_before w.takes_before q.plain_word
  have hoperands := q.operandValues?_places w.file_ne
  rw [← w.operands_eq] at hoperands
  obtain ⟨after, hafter, hta⟩ :=
    exists_takeAll q.named_accepted w.spelled_after w.ending_cases w.nodup_after w.takes_after
      hoperands
  refine ⟨optionsOf before after, ?_, ?_, fun level hlevel => ?_⟩
  · exact read_command q.word_ne_help (hbefore _) q.ofName?_word hafter (w.commandOf_taken hta)
  · have hjson : "json" ∈ before.switches ∨ "json" ∈ after.switches := by
      rw [htb.switches, hta.switches, List.mem_reverse, List.mem_reverse]
      exact w.json_mem
    simpa [optionsOf] using hjson
  · rcases Option.or_eq_some_iff.1 hlevel with h | ⟨-, h⟩
    · rw [hta.text?_eq_some_iff rfl, List.mem_reverse] at h
      exact Or.inr h
    · rw [htb.text?_eq_some_iff rfl, List.mem_reverse] at h
      exact Or.inl h

/-- Every question can be put to every file. -/
theorem nonempty (q : Question) (language : String) (hfile : file ≠ "") :
    Nonempty (Wording q file language) := by
  have hoptions : ∃ after os, Spelled after os [] ∧ (os.map (·.1)).Nodup
      ∧ (∀ o ∈ os, QuestionOption q language o) ∧ ("language", some language) ∈ os
      ∧ ∀ d, q = .analyze (some d) → ∃ s, ("depth", some s) ∈ os := by
    by_cases hdepth : ∃ d, q = .analyze (some d)
    · obtain ⟨d, rfl⟩ := hdepth
      have hd := Text.Numeral.spells_toDigits d.toNat
      exact ⟨_, _, .option (.joined "language" language)
          (.option (.joined "depth" (toString d.toNat)) .nil),
        by simp, by simp [QuestionOption, hd], by simp, by simp⟩
    · exact ⟨_, _, .option (.joined "language" language) .nil, by simp, by simp [QuestionOption],
        by simp, fun d hd => absurd ⟨d, hd⟩ hdepth⟩
  obtain ⟨after, os, hspelled, hnodup, hallowed, hlanguage, hdepth⟩ := hoptions
  exact ⟨{
    before := ["--json"]
    optionsBefore := [("json", none)]
    after := after
    optionsAfter := os
    operands := []
    behind := some (file :: q.places.map Position.toText)
    spelled_before := .option (.switch "json") .nil
    spelled_after := hspelled
    nodup_before := by simp
    nodup_after := hnodup
    allowed_before := by simp [ProgramOption]
    allowed_after := fun o ho => Or.inr (hallowed o ho)
    operands_eq := by simp
    file_ne := hfile
    json_mem := by simp
    language_mem := hlanguage
    depth_mem := hdepth }⟩

end Wording

section Runs

variable {around : Surroundings} {file source : String} {config : Config} {options : Options}

theorem decodeText_toUTF8 (s : String) : decodeText (.ok s.toUTF8) = .ok s := by
  have hs : String.fromUTF8? s.toUTF8 = some s := by
    rw [String.toUTF8_eq_toByteArray, String.fromUTF8?, dif_pos s.isValidUTF8]
    rfl
  simp only [decodeText, bind, Except.bind, hs]

theorem ofLevel_of_isLevel {fault? : String → Option String} {s : String} (h : IsLevel fault? s) :
    LogFilter.ofLevel fault? s = .ok ⟨LogFilter.directive s⟩ := by
  unfold IsLevel at h
  rw [LogFilter.ofLevel, h]

theorem exists_initial {fault? : String → Option String} {flag level : Option String}
    (environment : Option String) (hflag : ∀ s ∈ flag, IsLevel fault? s)
    (hlevel : IsLevel fault? (level.getD LogFilter.standard)) :
    ∃ f, LogFilter.initial fault? flag environment level = .ok f := by
  unfold LogFilter.initial
  split
  · exact ⟨_, ofLevel_of_isLevel (hflag _ rfl)⟩
  · split
    · exact ⟨_, rfl⟩
    · exact ⟨_, ofLevel_of_isLevel hlevel⟩

variable {κ : Type} {engine : Engine κ}

/-- A process whose log filters can be read has a provider. -/
theorem exists_provider (hconfig : loadConfig around = .ok config)
    (hoptions : ∀ level ∈ options.logLevel, IsLevel engine.filterFault? level)
    (hlevel : IsLevel engine.filterFault? (config.logLevel.getD LogFilter.standard)) :
    ∃ f, provider engine around options = .ok (.start config (some f)) := by
  obtain ⟨f, hf⟩ := exists_initial around.logFilter hoptions hlevel
  exact ⟨f, by simp [provider, hconfig, hf, bind, Except.bind, pure, Except.pure]⟩

variable [DecidableEq κ] (engine)

theorem snapshotOf_eq (hfile : around.file file = .ok source.toUTF8) (p : Provider κ)
    (language : String) :
    snapshotOf engine around p file (some language) = (p.parse engine file source language).1 := by
  have hread : readFile around file = .ok source := by
    rw [readFile, hfile, decodeText_toUTF8]
  cases hg : Grammar.forName language with
  | error e => simp [snapshotOf, Provider.parse, hg, bind, Except.bind]
  | ok g => simp [snapshotOf, hg, hread, Grammar.name_of_forName hg, bind, Except.bind]

theorem bind_eq_map_bind {ε α β γ : Type} (x : Except ε α) {f : α → Except ε β} {g : β → γ}
    {h : α → Except ε γ} (heq : ∀ a, h a = (f a).map g) : x >>= h = (x.bind f).map g := by
  rcases x with e | a
  · rfl
  · exact heq a

/-- What the command of a question writes is what the snapshot answers. -/
theorem output_eq (q : Question) (p : Provider κ) (language : Option String) :
    output engine around p true (q.command file language)
      = ((snapshotOf engine around p file language).bind q.answer).map jsonText := by
  cases q with
  | analyze depth => exact bind_eq_map_bind _ fun s => rfl
  | args => exact bind_eq_map_bind _ fun s => bind_eq_map_bind s.functionArguments fun _ => rfl
  | methods =>
    show (snapshotOf engine around p file language).map _ >>= _ = _
    cases snapshotOf engine around p file language <;> rfl
  | point place =>
    exact bind_eq_map_bind _ fun s => bind_eq_map_bind (s.nodeReportAt place) fun _ => rfl
  | region start stop =>
    exact bind_eq_map_bind _ fun s => bind_eq_map_bind (s.regionReportAt start stop) fun _ => rfl
  | scopes place =>
    exact bind_eq_map_bind _ fun s => bind_eq_map_bind (s.scopesAt place) fun _ => rfl

theorem exitCode_eq (e : Error) : exitCode e = if e.kind = "validation" then 2 else 3 := by
  cases e <;> simp [exitCode, Error.kind]

/-- It tells by its code whether a request succeeds and else of which kind the failure is, and
writes what the request gives and nothing else. -/
structure Conveys (outcome : Outcome) (answer : Except Error Json) : Prop where
  code_eq_zero_iff : outcome.code = 0 ↔ ∃ v, answer = .ok v
  read_output : ∀ v, answer = .ok v → Json.read? outcome.output.toUTF8.toList = some v
  of_error : ∀ e, answer = .error e →
    outcome.code = (if e.kind = "validation" then 2 else 3) ∧ outcome.output = ""

theorem run_conveys {p : Provider κ} {command : Command} {answer x : Except Error Json}
    (hprovider : provider engine around options = .ok p)
    (houtput : output engine around p options.json command = x.map jsonText)
    (hagree : Agree answer x) (hfits : ∀ v, answer = .ok v → v.Fits 5) :
    Conveys (run engine around options command) answer := by
  cases hagree with
  | ok v =>
    have hrun : run engine around options command = ⟨0, jsonText v, ""⟩ := by
      simp only [run, hprovider, houtput, bind, Except.bind, Except.map]
    have hv := hfits v rfl
    have hread := hv.plain.read?_pretty hv.ordered (Nat.le_trans hv.depth_le (by decide))
    rw [hrun]
    refine ⟨by simp, ?_, by simp⟩
    rintro _ ⟨⟩
    exact hread
  | @error e e' hkind =>
    have hrun : run engine around options command = ⟨exitCode e', "", printed e'.diagnostic⟩ := by
      simp only [run, hprovider, houtput, bind, Except.bind, Except.map]
    have hcode : exitCode e' = if e.kind = "validation" then 2 else 3 := by
      rw [hkind, exitCode_eq]
    rw [hrun]
    refine ⟨?_, by simp, ?_⟩
    · rw [hcode]
      split <;> simp
    · rintro _ ⟨⟩
      exact ⟨hcode, rfl⟩

/-- A command that puts a question to a file ends as the request of that question is answered by any
provider with the configuration of the directory, whatever that provider was asked before. The level
asked for and the configured or standard one are levels; the environment may hold any text. -/
theorem invoke_conveys {q : Question} {language : String} (w : Wording q file language)
    (logging : Option LogFilter) (history : List (String × Json))
    (hconfig : loadConfig around = .ok config)
    (hlevel : IsLevel engine.filterFault? (config.logLevel.getD LogFilter.standard))
    (hasked : ∀ s, w.AsksLevel s → IsLevel engine.filterFault? s)
    (hfile : around.file file = .ok source.toUTF8) :
    let p := ((Provider.start config logging).calls engine history).2
    ∃ outcome, invoke engine around w.arguments = .ok outcome
      ∧ Conveys outcome (p.call engine q.method.name (q.params language source)).1 := by
  intro p
  obtain ⟨options, hread, hjson, hoptions⟩ := w.read_arguments
  obtain ⟨f, hf⟩ := exists_provider hconfig (fun level h => hasked level (hoptions level h)) hlevel
  have hsteady : p.Steady engine.parser config logging.isSome :=
    (Provider.Steady.start config.cacheSize logging).calls history
  have hfresh : (Provider.start config (some f) : Provider κ).Steady engine.parser config true :=
    Provider.Steady.start config.cacheSize (some f)
  have houtput : output engine around (.start config (some f)) options.json
        (q.command file (some language))
      = ((Provider.parseAfresh engine.parser config file source language).bind q.answer).map
          jsonText := by
    rw [hjson, output_eq, snapshotOf_eq engine hfile, hfresh.parse_eq]
  have hagree : Agree (p.call engine q.method.name (q.params language source)).1
      ((Provider.parseAfresh engine.parser config file source language).bind q.answer) := by
    rw [q.call_eq, hsteady.parse_eq]
    exact (Provider.agree_parseAfresh _ _ _ _ _ _).bind q.answer
  refine ⟨run engine around options (q.command file (some language)), ?_, ?_⟩
  · simp [invoke, hread, bind, Except.bind, pure, Except.pure]
  · exact run_conveys engine hf houtput hagree fun v hv => Question.fits_call hv

section Example

/-- A parser that knows one tree, beside the log filters of the program. -/
def filteringEngine : Engine Unit :=
  ⟨Snapshot.twoStatementsParser, fun _ => (), LogFilter.fault?⟩

/-- A directory with one file, whose name begins with a dash. -/
def dashed : Surroundings where
  file path := if path = "-t.py" then .ok "x=é\ny".toUTF8 else .error .notFound
  logFilter := none
  input := []

/-- Options before and after the command, and the file and the positions behind two dashes. -/
def scattered : Wording (.region ⟨2, 1⟩ ⟨1, 3⟩) "-t.py" "python" where
  before := ["--no-color", "--log-level", "nodescope[serve]=debug"]
  optionsBefore := [("no-color", none), ("log-level", some "nodescope[serve]=debug")]
  after := ["--json", "--language=python"]
  optionsAfter := [("json", none), ("language", some "python")]
  operands := []
  behind := some ["-t.py", "2:1", "1:3"]
  spelled_before :=
    .option (.switch "no-color") (.option (.spaced "log-level" (by simp [Plain])) .nil)
  spelled_after := .option (.switch "json") (.option (.joined "language" "python") .nil)
  nodup_before := by simp
  nodup_after := by simp
  allowed_before := by simp [ProgramOption]
  allowed_after := by simp [ProgramOption, QuestionOption]
  operands_eq := by decide
  file_ne := by simp
  json_mem := by simp
  language_mem := by simp
  depth_mem := by simp

theorem invoke_conveys_scattered :
    ∃ outcome, invoke filteringEngine dashed
        ["--no-color", "--log-level", "nodescope[serve]=debug", "region", "--json",
          "--language=python", "--", "-t.py", "2:1", "1:3"] = .ok outcome
      ∧ outcome.code = 0
      ∧ Json.read? outcome.output.toUTF8.toList = some (RegionReport.toJson
          ⟨.siblings [1, 5],
            [⟨"expression_statement", ⟨⟨1, 1⟩, ⟨1, 3⟩⟩, "x=é"⟩,
             ⟨"expression_statement", ⟨⟨2, 1⟩, ⟨2, 1⟩⟩, "y"⟩], "x=é\ny"⟩) := by
  have hconfig : loadConfig dashed = .ok Config.standard := by decide
  have hlevel : IsLevel filteringEngine.filterFault?
      (Config.standard.logLevel.getD LogFilter.standard) := by decide
  have hasked : ∀ s, scattered.AsksLevel s → IsLevel filteringEngine.filterFault? s := by
    intro s hs
    obtain rfl : s = "nodescope[serve]=debug" := by simpa [Wording.AsksLevel, scattered] using hs
    decide
  have hfile : dashed.file "-t.py" = .ok "x=é\ny".toUTF8 := rfl
  obtain ⟨outcome, hinvoke, hconveys⟩ :=
    invoke_conveys filteringEngine scattered none [] hconfig hlevel hasked hfile
  have hanswer : (((Provider.start Config.standard none).calls filteringEngine []).2.call
        filteringEngine "get_region" ((Question.region ⟨2, 1⟩ ⟨1, 3⟩).params "python" "x=é\ny")).1
      = .ok (RegionReport.toJson ⟨.siblings [1, 5],
          [⟨"expression_statement", ⟨⟨1, 1⟩, ⟨1, 3⟩⟩, "x=é"⟩,
           ⟨"expression_statement", ⟨⟨2, 1⟩, ⟨2, 1⟩⟩, "y"⟩], "x=é\ny"⟩) := by cbv
  exact ⟨outcome, hinvoke, hconveys.code_eq_zero_iff.2 ⟨_, hanswer⟩,
    hconveys.read_output _ hanswer⟩

end Example

end Runs

end CommandLine

end SyntaxQuery
