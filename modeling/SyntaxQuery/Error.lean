import SyntaxQuery.Json.Fault
import SyntaxQuery.Source.Snapshot

/-!
# What a request can fail with

Each failure has a kind, by which programs tell failures apart, and a message for people. The causes
inside the library are types of their own; here they have become text.
-/

namespace SyntaxQuery

/-- A failure of a request or a command. -/
inductive Error where
  | invalidParams (method reason : String)
  | io (text : String)
  | json (fault : Json.Fault)
  | logFilter (directive reason : String)
  | malformedTree (reason : String)
  | parseFailed (origin reason : String)
  | sourceTooLarge (maxBytes : Nat) (origin : String) (size : Nat)
  | toml (text : String)
  | unknownMethod (available : List String) (name : String)
  | unsupportedLanguage (name : String)
  | validation (reason : String)
deriving DecidableEq, Repr

namespace Error

/-- The word by which programs tell failures apart. -/
def kind : Error → String
  | invalidParams .. => "invalid_params"
  | io _ => "io"
  | json _ => "json"
  | logFilter .. => "invalid_params"
  | malformedTree _ => "malformed_tree"
  | parseFailed .. => "parse_failed"
  | sourceTooLarge .. => "source_too_large"
  | toml _ => "config"
  | unknownMethod .. => "unknown_method"
  | unsupportedLanguage _ => "unsupported_language"
  | validation _ => "validation"

def message : Error → String
  | invalidParams method reason => "invalid params for `" ++ method ++ "`: " ++ reason
  | io text => "io: " ++ text
  | json fault => "json: " ++ fault.toText
  | logFilter directive reason => "invalid log filter `" ++ directive ++ "`: " ++ reason
  | malformedTree reason => "malformed tree: " ++ reason
  | parseFailed origin reason => "parse failed: " ++ origin ++ ": " ++ reason
  | sourceTooLarge maxBytes origin size =>
    "source too large (" ++ toString size ++ " bytes, max " ++ toString maxBytes ++ "): " ++ origin
  | toml text => "toml deserialize: " ++ text
  | unknownMethod _ name => "unknown method: `" ++ name ++ "`"
  | unsupportedLanguage name => "unsupported language: `" ++ name ++ "`"
  | validation reason => "validation failed: " ++ reason

end Error

namespace ParseError

/-- The failure to parse the source that came from `origin`. -/
def toError (origin : String) : ParseError → Error
  | tooLarge maxBytes size => .sourceTooLarge maxBytes origin size
  | noTree => .parseFailed origin "tree-sitter returned None"
  | fault place missing kind =>
    .parseFailed origin
      ("syntax error at " ++ place.toText ++ ": " ++ (if missing then "missing" else "unexpected") ++
        " `" ++ kind ++ "`")

end ParseError

namespace Malformed

/-- The failure of a walk through a malformed tree. -/
def toError {ν : Type} [ToString ν] (m : Malformed ν) : Error :=
  .malformedTree m.message

end Malformed

namespace Grammar

/-- The language called `name`. -/
def forName (name : String) : Except Error Grammar :=
  match named? name with
  | some g => .ok g
  | none => .error (.unsupportedLanguage name)

/-- The language of the file at `path`, by its extension. -/
def forPath (path : String) : Except Error Grammar :=
  match ofExtension? (extension path) with
  | some g => .ok g
  | none => .error (.unsupportedLanguage (extension path))

end Grammar

end SyntaxQuery
