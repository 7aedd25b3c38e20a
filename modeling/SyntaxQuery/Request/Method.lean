import SyntaxQuery.Request.Decode
import SyntaxQuery.Source.Shape

/-!
# Methods and their params

Each method has a name, a help text and a record of params. `Call` is a method together with its
decoded params.
-/

namespace SyntaxQuery

/-- What can be asked for. -/
inductive Method where
  | analyze | echo | getArgs | getCurrent | getParents | getRegion | help | listMethods
  | setLoggingLevel | version
deriving DecidableEq, Repr

namespace Method

/-- All methods in the order of their names. -/
def all : List Method :=
  [analyze, echo, getArgs, getCurrent, getParents, getRegion, help, listMethods, setLoggingLevel,
   version]

def name : Method → String
  | analyze => "analyze"
  | echo => "echo"
  | getArgs => "get_args"
  | getCurrent => "get_current"
  | getParents => "get_parents"
  | getRegion => "get_region"
  | help => "help"
  | listMethods => "list_methods"
  | setLoggingLevel => "set_logging_level"
  | version => "version"

def helpText : Method → String
  | analyze =>
    "analyze(source, language?, depth?) -> indented dump of the top-level nodes, `depth` levels " ++
      "deep (default 2)"
  | echo => "echo(echo) -> the value unchanged"
  | getArgs =>
    "get_args(source, language?) -> [[name, default or null], ...] for a single function definition"
  | getCurrent =>
    "get_current(source, language?, row, column) -> \x7btype_tag, span, text\x7d of the " ++
      "innermost node at the position"
  | getParents =>
    "get_parents(source, language?, row, column) -> enclosing scopes, innermost first"
  | getRegion =>
    "get_region(source, language?, start, end) -> \x7bkind, nodes, text\x7d of the node or " ++
      "sibling run covering the selection"
  | help => "help(name) -> help text of a method"
  | listMethods =>
    "list_methods(source?, language?) -> method names; with a source, only methods that accept it"
  | setLoggingLevel =>
    "set_logging_level(level) -> null; level is DEBUG, INFO, WARNING, ERROR, CRITICAL or a " ++
      "filter directive"
  | version => "version() -> server version"

/-- The shape a source must have for the method, if it asks for one. -/
def shape : Method → Option Shape
  | getArgs => some .function
  | _ => none

/-- The method called `name`. -/
def named (name : String) : Except Error Method :=
  match all.find? fun m => m.name = name with
  | some m => .ok m
  | none => .error (.unknownMethod (all.map Method.name) name)

/-- Whether a source has the shape that the method asks for. -/
def accepts (m : Method) (s : Snapshot) : Bool :=
  match m.shape with
  | none => true
  | some shape => (shape.check s).toBool

/-- The names of all methods, or of those that accept a source. -/
def names (s : Option Snapshot) : List String :=
  match s with
  | none => all.map Method.name
  | some s => (all.filter fun m => m.accepts s).map Method.name

end Method

/-- A source and the name of its language. -/
structure SourceParams where
  language : Option String
  source : String
deriving DecidableEq, Repr

namespace SourceParams

def ofMembers (members : List (String × Json)) : Except DecodeError SourceParams := do
  let language ← Decode.member? members "language" (Decode.nullable Decode.text)
  let source ← Decode.member? members "source" Decode.text
  let source ← Decode.required "source" source
  return ⟨language.join, source⟩

def ofItems (items : List Json) : Except DecodeError SourceParams := do
  let language ← Decode.item? items 0 (Decode.nullable Decode.text)
  let source ← Decode.item "SourceParams" 2 items 1 Decode.text
  Decode.noMore 2 items
  return ⟨language.join, source⟩

end SourceParams

/-- A method with its params. -/
inductive Call where
  | analyze (depth : Option Nat) (source : SourceParams)
  | echo (value : Json)
  | getArgs (source : SourceParams)
  | getCurrent (place : Position) (source : SourceParams)
  | getParents (place : Position) (source : SourceParams)
  | getRegion (start stop : Position) (source : SourceParams)
  | help (name : String)
  | listMethods (language source : Option String)
  | setLoggingLevel (level : String)
  | version
deriving Repr

namespace Call

def analyzeParams : Decode.Decoder Call :=
  Decode.record "AnalyzeParams" fun members => do
    let depth ← Decode.member? members "depth" (Decode.nullable Decode.word64)
    let source ← SourceParams.ofMembers members
    return .analyze depth.join source

/-- Params that name a position in a source. -/
def pointParams (call : Position → SourceParams → Call) : Decode.Decoder Call :=
  Decode.record "PointParams" fun members => do
    let column ← Decode.member? members "column" Decode.word32
    let row ← Decode.member? members "row" Decode.word32
    let column ← Decode.required "column" column
    let row ← Decode.required "row" row
    let source ← SourceParams.ofMembers members
    return call ⟨row, column⟩ source

def regionParams : Decode.Decoder Call :=
  Decode.record "RegionParams" fun members => do
    let stop ← Decode.member? members "end" Decode.position
    let start ← Decode.member? members "start" Decode.position
    let stop ← Decode.required "end" stop
    let start ← Decode.required "start" start
    let source ← SourceParams.ofMembers members
    return .getRegion start stop source

def listParams : Decode.Decoder Call :=
  Decode.recordOrArray "ListParams"
    (fun members => do
      let language ← Decode.member? members "language" (Decode.nullable Decode.text)
      let source ← Decode.member? members "source" (Decode.nullable Decode.text)
      return .listMethods language.join source.join)
    (fun items => do
      let language ← Decode.item? items 0 (Decode.nullable Decode.text)
      let source ← Decode.item? items 1 (Decode.nullable Decode.text)
      Decode.noMore 2 items
      return .listMethods language.join source.join)

/-- Decode the params of a method. -/
def decode (m : Method) (params : Json) : Except DecodeError Call :=
  match m with
  | .analyze => Decode.params analyzeParams params
  | .echo => (Decode.params (Decode.single "EchoParams" "echo" Decode.any) params).map .echo
  | .getArgs =>
    (Decode.params
      (Decode.recordOrArray "SourceParams" SourceParams.ofMembers SourceParams.ofItems)
      params).map .getArgs
  | .getCurrent => Decode.params (pointParams .getCurrent) params
  | .getParents => Decode.params (pointParams .getParents) params
  | .getRegion => Decode.params regionParams params
  | .help => (Decode.params (Decode.single "HelpParams" "name" Decode.text) params).map .help
  | .listMethods => Decode.params listParams params
  | .setLoggingLevel =>
    (Decode.params (Decode.single "LevelParams" "level" Decode.text) params).map .setLoggingLevel
  | .version => .ok .version

/-- The method called `name` with these params. -/
def read (name : String) (params : Json) : Except Error Call := do
  let m ← Method.named name
  match decode m params with
  | .ok call => .ok call
  | .error e => .error (.invalidParams m.name e.reason)

end Call

end SyntaxQuery
