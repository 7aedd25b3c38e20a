import SyntaxQuery.Json.Basic
import SyntaxQuery.Source.Snapshot
import SyntaxQuery.Toml.Reader

/-!
# Configuration

A directory may hold a configuration file. Without one the defaults apply; one that cannot be read,
has an unknown key or a value of the wrong type is refused as a whole.
-/

namespace SyntaxQuery

/-- The settings in force. -/
structure Config where
  cacheSize : Nat
  /-- Extra kinds of containers by language, in the order of the languages' names. -/
  containers : List (String × List String)
  fromFile : Bool
  logLevel : Option String
  maxFileSize : Nat
deriving DecidableEq, Repr

namespace Config

/-- The name of the configuration file. -/
def fileName : String := ".nodescope.toml"

/-- The settings without a file. -/
def standard : Config where
  cacheSize := 32
  containers := []
  fromFile := false
  logLevel := none
  maxFileSize := 16 * 1024 * 1024

def count? : Toml → Option Nat
  | .integer (.ofNat n) => some n
  | _ => none

def text? : Toml → Option String
  | .text s => some s
  | _ => none

def texts? : Toml → Option (List String)
  | .array items => items.mapM text?
  | _ => none

def containers? : Toml → Option (List (String × List String))
  | .table entries => do
    let kinds ← entries.mapM fun (language, v) => (texts? v).map (language, ·)
    return Json.sortMembers kinds
  | _ => none

/-- Take over one entry of the file. -/
def set? (c : Config) : String × Toml → Option Config
  | (key, v) =>
    if key = "cache_size" then (count? v).map fun n => { c with cacheSize := n }
    else if key = "containers" then (containers? v).map fun k => { c with containers := k }
    else if key = "log_level" then (text? v).map fun s => { c with logLevel := some s }
    else if key = "max_file_size" then (count? v).map fun n => { c with maxFileSize := n }
    else none

/-- The settings of a file with this content. -/
def read? (content : String) : Option Config := do
  let entries ← Toml.read? content
  entries.foldlM set? { standard with fromFile := true }

/-- How sources of a language are parsed. -/
def parseOptions (c : Config) (language : String) : ParseOptions where
  extra := (Json.member? c.containers language).getD []
  maxBytes := c.maxFileSize

end Config

end SyntaxQuery
