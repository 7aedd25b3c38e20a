/-!
# Supported languages

Each language has the file extensions it goes by and the kinds of nodes whose children are items of
an ordered container.
-/

namespace SyntaxQuery

/-- A supported language. -/
structure Grammar where
  name : String
  extensions : List String
  containers : List String
deriving DecidableEq, Repr

namespace Grammar

def bash : Grammar where
  name := "bash"
  extensions := ["sh", "bash"]
  containers := ["compound_statement", "do_group", "program"]

def go : Grammar where
  name := "go"
  extensions := ["go"]
  containers :=
    ["argument_list", "block", "field_declaration_list", "import_spec_list", "literal_value",
     "parameter_list", "source_file"]

def python : Grammar where
  name := "python"
  extensions := ["py", "pyi"]
  containers :=
    ["argument_list", "block", "dictionary", "expression_list", "list", "module", "parameters",
     "set", "tuple"]

def rust : Grammar where
  name := "rust"
  extensions := ["rs"]
  containers :=
    ["arguments", "array_expression", "block", "declaration_list", "enum_variant_list",
     "field_declaration_list", "match_block", "parameters", "source_file", "tuple_expression",
     "use_list"]

def tsx : Grammar where
  name := "tsx"
  extensions := ["tsx", "jsx"]
  containers :=
    ["arguments", "array", "class_body", "enum_body", "formal_parameters", "object", "program",
     "statement_block"]

def typescript : Grammar where
  name := "typescript"
  extensions := ["ts", "js"]
  containers := tsx.containers

/-- The supported languages in the order of their names. -/
def all : List Grammar := [bash, go, python, rust, tsx, typescript]

/-- The language called `name`. -/
def named? (name : String) : Option Grammar :=
  all.find? fun g => g.name = name

/-- The language whose files end in `.ext`. -/
def ofExtension? (ext : String) : Option Grammar :=
  all.find? fun g => g.extensions.contains ext

/-- The extension of a path: what follows the last dot of its last component. Slashes and `.`
components at the end do not count, a dot at the start of the component begins no extension, and
`..` has none. A path without extension has the empty one. -/
def extension (path : String) : String :=
  let parts := (path.splitOn "/").filter fun c => c ≠ "" ∧ c ≠ "."
  match parts.getLast? with
  | none => ""
  | some name =>
    if name = ".." then ""
    else
      let cs := name.toList.reverse
      match cs.span (· ≠ '.') with
      | (ext, _ :: _ :: _) => String.ofList ext.reverse
      | _ => ""

end Grammar

end SyntaxQuery
