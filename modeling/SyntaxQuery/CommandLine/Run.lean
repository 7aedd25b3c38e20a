import SyntaxQuery.CommandLine.Arguments
import SyntaxQuery.CommandLine.Info
import SyntaxQuery.Error.Diagnostic
import SyntaxQuery.Files
import SyntaxQuery.Server

/-!
# Running commands

A command is run in the surroundings of a process: the files it can read, its environment and its
standard input. It ends with a code, and with what it writes to standard output and standard error.
-/

namespace SyntaxQuery

/-- The surroundings of a process. -/
structure Surroundings where
  /-- The octets of a file. -/
  file : String → Except ReadError ByteArray
  /-- The log filter of the environment. -/
  logFilter : Option String
  input : List UInt8

/-- How a command ends. -/
structure Outcome where
  code : Nat
  output : String
  diagnostics : String
deriving DecidableEq, Repr

namespace CommandLine

/-- The text of a file. -/
def readFile (around : Surroundings) (path : String) : Except Error String :=
  match decodeText (around.file path) with
  | .ok s => .ok s
  | .error e => .error (.io e.message)

/-- The configuration of the directory. `<toml>` stands for what the TOML reader says of a text that
is no configuration. -/
def loadConfig (around : Surroundings) : Except Error Config :=
  match decodeText (around.file Config.fileName) with
  | .error .notFound => .ok .standard
  | .error e => .error (.io e.message)
  | .ok content =>
    match Config.read? content with
    | some c => .ok c
    | none => .error (.toml "<toml>")

variable {κ : Type} [DecidableEq κ] (engine : Engine κ)

/-- The snapshot of a file, in the language called `language` or that of its extension. -/
def snapshotOf (around : Surroundings) (p : Provider κ) (file : String)
    (language : Option String) : Except Error Snapshot := do
  let g ← match language with
    | some name => Grammar.forName name
    | none => Grammar.forPath file
  let source ← readFile around file
  (p.parse engine file source g.name).1

def line (s : String) : String := s ++ "\n"

/-- A value as JSON over several lines. -/
def jsonText (v : Json) : String := line v.pretty

def nodeLine (tag : String) (span : Span) : String :=
  line (tag ++ " [" ++ span.toText ++ "]")

def argumentLine (a : Argument) : String :=
  match a.default with
  | none => line a.name
  | some v => line (a.name ++ "=" ++ v)

/-- What a command writes to standard output. Serving over TCP is not modelled: with a port, `serve`
fails here with a text of its own. -/
def output (around : Surroundings) (p : Provider κ) (json : Bool) :
    Command → Except Error String
  | .analyze file depth language => do
    let s ← snapshotOf engine around p file language
    return if json then jsonText (.text (s.outline depth)) else line (s.outline depth)
  | .args file language => do
    let s ← snapshotOf engine around p file language
    let arguments ← s.functionArguments
    return if json then jsonText (.array (arguments.map Argument.toJson))
      else String.join (arguments.map argumentLine)
  | .info => .ok (if json then jsonText (infoJson p.config) else infoText p.config)
  | .methods _ (some name) _ => do
    let text := (← Method.named name).helpText
    return if json then jsonText (.text text) else line text
  | .methods file none language => do
    let names ← match file with
      | none => pure (Method.names none)
      | some file =>
        (snapshotOf engine around p file language).map fun s => Method.names (some s)
    return if json then jsonText (.ofTexts names) else String.join (names.map line)
  | .point file place language => do
    let s ← snapshotOf engine around p file language
    let r ← s.nodeReportAt place
    return if json then jsonText r.toJson else nodeLine r.tag r.span ++ line r.text
  | .region file start stop language => do
    let s ← snapshotOf engine around p file language
    let r ← s.regionReportAt start stop
    return if json then jsonText r.toJson
      else String.join (r.nodes.map fun n => nodeLine n.tag n.span) ++ line "---" ++ line r.text
  | .scopes file place language => do
    let s ← snapshotOf engine around p file language
    let scopes ← s.scopesAt place
    return if json then jsonText (.array (scopes.map Scope.toJson))
      else String.join (scopes.map fun s => nodeLine s.tag s.span)
  | .serve none => .ok (Server.serve engine p around.input)
  | .serve (some _) => .error (.io "Operation not supported (os error 95)")

/-- The provider of a process with these options. -/
def provider (around : Surroundings) (options : Options) : Except Error (Provider κ) := do
  let config ← loadConfig around
  let filter ← LogFilter.initial engine.filterFault? options.logLevel around.logFilter
    config.logLevel
  return .start config (some filter)

/-- The lines of a text as they are printed: each ends in a line feed alone. -/
def printed (text : String) : String :=
  let lines := text.splitOn "\n"
  let lines := if lines.getLast? = some "" then lines.dropLast else lines
  String.join (lines.map fun l => line (if l.endsWith "\r" then (l.dropEnd 1).toString else l))

/-- The code with which a failed command ends. -/
def exitCode : Error → Nat
  | .validation _ => 2
  | _ => 3

/-- Run a command. -/
def run (around : Surroundings) (options : Options) (command : Command) : Outcome :=
  match (do output engine around (← provider engine around options) options.json command :
    Except Error String) with
  | .ok text => ⟨0, text, ""⟩
  | .error e => ⟨exitCode e, "", printed e.diagnostic⟩

/-- Do what a command line asks for. -/
def invoke (around : Surroundings) (arguments : List String) : Except UsageError Outcome := do
  match ← read arguments with
  | .version => return ⟨0, line ("nodescope " ++ Provider.version), ""⟩
  | .help => return ⟨0, overview, ""⟩
  | .run options command => return run engine around options command

end CommandLine

end SyntaxQuery
