import SyntaxQuery.Error

/-!
# Diagnostics

A failure explained to the user as a short document: what went wrong, and where it helps, what to
do about it.
-/

namespace SyntaxQuery.Error

/-- One line for each language with its extensions. -/
def languageLines : String :=
  String.join <| Grammar.all.map fun g =>
    "- " ++ g.name ++ ": " ++ ", ".intercalate (g.extensions.map fun e => "`." ++ e ++ "`") ++ "\n"

/-- The document that explains a failure. -/
def diagnostic : Error → String
  | invalidParams method reason =>
    "# Error: Invalid Parameters\n\n`" ++ method ++ "` rejected its parameters: " ++ reason ++
      "\n\n## Fix\n\n    nodescope methods --describe " ++ method ++ "\n"
  | io text => "# Error: I/O\n\n" ++ text ++ "\n"
  | json fault => "# Error\n\n" ++ message (json fault) ++ "\n"
  | logFilter directive reason =>
    "# Error: Invalid Log Level\n\n`" ++ directive ++ "` is not a level or filter directive: " ++
      reason ++ "\n\nUse one of DEBUG, INFO, WARNING, ERROR, CRITICAL, or a `RUST_LOG` style " ++
      "directive.\n"
  | malformedTree reason =>
    "# Error: Malformed Tree\n\n" ++ reason ++
      "\n\nThe parser produced a tree that breaks parent or container invariants, so no\n" ++
      "result was returned.\n"
  | parseFailed origin reason =>
    "# Error: Parse Failed\n\nCould not parse `" ++ origin ++ "`: " ++ reason ++
      "\n\n## Fix\n\nOnly sources without syntax errors can be resolved. Check the language\n" ++
      "(`--language`) and fix the reported position.\n"
  | sourceTooLarge maxBytes origin size =>
    "# Error: Source Too Large\n\n`" ++ origin ++ "` is " ++ toString size ++ " bytes (max " ++
      toString maxBytes ++ ").\n\n## Fix\n\nRaise `max_file_size` in `.nodescope.toml`.\n"
  | toml text =>
    "# Error: Invalid TOML\n\n" ++ text ++
      "\n\n## Fix\n\nCorrect `.nodescope.toml` or remove it to use the defaults.\n"
  | unknownMethod available name =>
    "# Error: Unknown Method\n\nNo method named `" ++ name ++ "`.\n\n## Available methods\n\n" ++
      String.join (available.map fun m => "- `" ++ m ++ "`\n")
  | unsupportedLanguage name =>
    "# Error: Unsupported Language\n\nNo tree-sitter grammar for `" ++ name ++
      "`.\n\n## Supported languages\n\n" ++ languageLines
  | validation reason => "# Error: Validation Failed\n\n" ++ reason ++ "\n"

end SyntaxQuery.Error
