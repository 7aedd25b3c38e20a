import SyntaxQuery.Cache
import SyntaxQuery.Config
import SyntaxQuery.LogFilter
import SyntaxQuery.Request.Method
import SyntaxQuery.Source.Report

/-!
# The provider

A provider answers calls one after another. Between calls it keeps its configuration, its cache of
snapshots and the log filter of the process, if it has one.
-/

namespace SyntaxQuery

/-- What answers calls. -/
structure Provider (κ : Type) where
  config : Config
  cache : Cache κ
  logging : Option LogFilter

namespace Provider

variable {κ : Type}

def start (config : Config) (logging : Option LogFilter) : Provider κ :=
  ⟨config, .empty config.cacheSize, logging⟩

/-- The language of a source that does not name one. -/
def defaultLanguage : String := "python"

/-- The origin of a source that came with a call. -/
def wireOrigin : String := "<source>"

/-- The version of the program. -/
def version : String := "0.1.0"

variable [DecidableEq κ] (engine : Engine κ)

/-- Parse a source in the language called `language`. -/
def parse (p : Provider κ) (origin source language : String) :
    Except Error Snapshot × Provider κ :=
  match Grammar.forName language with
  | .error e => (.error e, p)
  | .ok g =>
    let (result, cache) := p.cache.parse engine g (p.config.parseOptions g.name) source
    let answer : Except Error Snapshot := match result with
      | .ok s => .ok s.snapshot
      | .error e => .error (e.toError origin)
    (answer, { p with cache := cache })

/-- Parse the source of a call and answer by `f`. -/
def withSource (p : Provider κ) (params : SourceParams) (f : Snapshot → Except Error Json) :
    Except Error Json × Provider κ :=
  let (result, p) := p.parse engine wireOrigin params.source
    (params.language.getD defaultLanguage)
  (result.bind f, p)

/-- Replace the log filter. -/
def setLevel (p : Provider κ) (level : String) : Except Error Json × Provider κ :=
  match p.logging with
  | none =>
    (.error (.invalidParams Method.setLoggingLevel.name
      "logging was not initialised by this process"), p)
  | some _ =>
    match LogFilter.ofLevel engine.filterFault? level with
    | .ok f => (.ok .null, { p with logging := some f })
    | .error e => (.error e, p)

/-- Answer a call. -/
def perform (p : Provider κ) : Call → Except Error Json × Provider κ
  | .analyze depth source =>
    p.withSource engine source fun s =>
      .ok (.text (s.outline (depth.getD Snapshot.defaultDepth)))
  | .echo value => (.ok value, p)
  | .getArgs source =>
    p.withSource engine source fun s => do
      return .array ((← s.functionArguments).map Argument.toJson)
  | .getCurrent place source =>
    p.withSource engine source fun s => do return (← s.nodeReportAt place).toJson
  | .getParents place source =>
    p.withSource engine source fun s => do
      return .array ((← s.scopesAt place).map Scope.toJson)
  | .getRegion start stop source =>
    p.withSource engine source fun s => do return (← s.regionReportAt start stop).toJson
  | .help name => (do return .text (← Method.named name).helpText, p)
  | .listMethods language source =>
    match source with
    | none => (.ok (.ofTexts (Method.names none)), p)
    | some source =>
      p.withSource engine ⟨language, source⟩ fun s => .ok (.ofTexts (Method.names (some s)))
  | .setLoggingLevel level => p.setLevel engine level
  | .version => (.ok (.text version), p)

/-- Answer the method called `name`. -/
def call (p : Provider κ) (name : String) (params : Json) : Except Error Json × Provider κ :=
  match Call.read name params with
  | .ok call => p.perform engine call
  | .error e => (.error e, p)

/-- Answer calls one after another. -/
def calls (p : Provider κ) : List (String × Json) → List (Except Error Json) × Provider κ
  | [] => ([], p)
  | (name, params) :: rest =>
    let (answer, p) := p.call engine name params
    let (answers, p) := calls p rest
    (answer :: answers, p)

end Provider

end SyntaxQuery
