import SyntaxQuery.Provider

/-!
# The reference document

What the program can do and with which settings it runs, as a document to read or as JSON.
-/

namespace SyntaxQuery.CommandLine

/-- The commands and what they show. -/
def overview : String :=
  "# nodescope " ++ Provider.version ++
  "\n\nResolve cursor positions and selections to syntax tree nodes, and list the\n" ++
  "scopes enclosing them. Rows and columns are one-based; columns count characters.\n\n" ++
  "## Commands\n\n" ++
  "    nodescope point <file> <ROW:COL>               innermost node at a position\n" ++
  "    nodescope region <file> <ROW:COL> <ROW:COL>    node or sibling run covering a selection\n" ++
  "    nodescope scopes <file> <ROW:COL>              enclosing scopes, innermost first\n" ++
  "    nodescope analyze <file> [--depth N]           indented dump of the top-level nodes\n" ++
  "    nodescope args <file>                          arguments of a single function definition\n" ++
  "    nodescope methods [file] [--describe NAME]     callable methods, or one method's help\n" ++
  "    nodescope serve [--port N]                     JSON lines over stdio, or TCP with --port\n\n"

/-- The extensions of a language, each with its dot. -/
def dotted (g : Grammar) : List String := g.extensions.map ("." ++ ·)

/-- `s` with spaces up to `width` characters. -/
def padRight (width : Nat) (s : String) : String :=
  s ++ String.ofList (List.replicate (width - s.length) ' ')

def languages : String :=
  "## Supported Languages\n\n" ++
  "| Language   | Extensions |\n" ++
  "|------------|------------|\n" ++
  String.join (Grammar.all.map fun g =>
    "| " ++ padRight 10 g.name ++ " | " ++ " ".intercalate (dotted g) ++ " |\n") ++
  "\n"

def methodList : String :=
  "## Methods\n\n" ++ String.join ((Method.names none).map fun m => "- `" ++ m ++ "`\n") ++ "\n"

/-- The extra containers, one text for each language, in the order of the texts. -/
def containerTexts (config : Config) : List String :=
  let texts := config.containers.map fun (language, kinds) =>
    language ++ ": " ++ ", ".intercalate kinds
  texts.mergeSort fun a b => decide (a ≤ b)

def state (config : Config) : String :=
  "## Current State\n\n" ++
  "Config:         " ++ Config.fileName ++
    (if config.fromFile then " (found)\n" else " (not found, defaults)\n") ++
  "Max file size:  " ++ toString config.maxFileSize ++ " bytes\n" ++
  "Cache size:     " ++ toString config.cacheSize ++ "\n" ++
  "Containers:     " ++
    (if config.containers.isEmpty then "(grammar defaults)"
     else "; ".intercalate (containerTexts config)) ++ "\n"

/-- The codes with which the program ends. -/
def exitCodes : List (Nat × String) :=
  [(0, "Success"), (2, "Source rejected by a validator"), (3, "Runtime error")]

def exitCodeTable : String :=
  "## Exit Codes\n\n| Code | Meaning |\n|------|---------|\n" ++
  String.join (exitCodes.map fun (code, meaning) =>
    "| " ++ padRight 4 (toString code) ++ " | " ++ meaning ++ " |\n")

/-- The document to read. -/
def infoText (config : Config) : String :=
  overview ++ languages ++ methodList ++ state config ++ "\n" ++ exitCodeTable

/-- The document as JSON. -/
def infoJson (config : Config) : Json :=
  .object
    [("current_state", .object
       [("cache_size", .ofNat config.cacheSize),
        ("config_found", .bool config.fromFile),
        ("containers", .ofMembers (config.containers.map fun (l, ks) => (l, .ofTexts ks))),
        ("max_file_size", .ofNat config.maxFileSize)]),
     ("exit_codes", .array (exitCodes.map fun (code, meaning) =>
       .object [("code", .ofNat code), ("meaning", .text meaning)])),
     ("methods", .ofTexts (Method.names none)),
     ("supported_languages", .array (Grammar.all.map fun g =>
       .object [("extensions", .ofTexts (dotted g)), ("language", .text g.name)])),
     ("version", .text Provider.version)]

end SyntaxQuery.CommandLine
