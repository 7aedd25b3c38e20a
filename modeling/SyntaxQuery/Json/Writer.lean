import SyntaxQuery.Json.Basic
import SyntaxQuery.Text.Quoted

/-!
# Writing JSON

`compact` writes a value on one line without spaces, `pretty` one item or member on a line with two
spaces for each level. Both escape the quote, the backslash and the controls below the space, and
nothing else.
-/

namespace SyntaxQuery.Json

/-- How `c` is written inside the quotes of a JSON text. -/
def writtenChar (c : Char) : String :=
  if c = '"' then "\\\""
  else if c = '\\' then "\\\\"
  else if c = '\x08' then "\\b"
  else if c = '\x0c' then "\\f"
  else if c = '\n' then "\\n"
  else if c = '\r' then "\\r"
  else if c = '\t' then "\\t"
  else if c.toNat < 0x10 then "\\u000" ++ Text.hex c.toNat
  else if c.toNat < 0x20 then "\\u00" ++ Text.hex c.toNat
  else c.toString

def writtenText (s : String) : String :=
  "\"" ++ String.join (s.toList.map writtenChar) ++ "\""

/-- A value that has no parts. -/
def scalar : Json → String
  | .null => "null"
  | .bool true => "true"
  | .bool false => "false"
  | .number n => n.toText
  | .text s => writtenText s
  | .array _ => "[]"
  | .object _ => "\x7b\x7d"

mutual

/-- A value on one line. -/
def compact : Json → String
  | .array items => "[" ++ compactItems items ++ "]"
  | .object members => "\x7b" ++ compactMembers members ++ "\x7d"
  | v => scalar v

def compactItems : List Json → String
  | [] => ""
  | [v] => compact v
  | v :: w :: rest => compact v ++ "," ++ compactItems (w :: rest)

def compactMembers : List (String × Json) → String
  | [] => ""
  | [(name, v)] => writtenText name ++ ":" ++ compact v
  | (name, v) :: m :: rest =>
    writtenText name ++ ":" ++ compact v ++ "," ++ compactMembers (m :: rest)

end

/-- The start of a line at `level`. -/
def indent (level : Nat) : String :=
  "\n" ++ String.join (List.replicate level "  ")

mutual

/-- A value over several lines, its last line at `level`. -/
def prettyAt (level : Nat) : Json → String
  | .array (v :: vs) => "[" ++ prettyItems (level + 1) (v :: vs) ++ indent level ++ "]"
  | .object (m :: ms) => "\x7b" ++ prettyMembers (level + 1) (m :: ms) ++ indent level ++ "\x7d"
  | v => scalar v

def prettyItems (level : Nat) : List Json → String
  | [] => ""
  | [v] => indent level ++ prettyAt level v
  | v :: w :: rest => indent level ++ prettyAt level v ++ "," ++ prettyItems level (w :: rest)

def prettyMembers (level : Nat) : List (String × Json) → String
  | [] => ""
  | [(name, v)] => indent level ++ writtenText name ++ ": " ++ prettyAt level v
  | (name, v) :: m :: rest =>
    indent level ++ writtenText name ++ ": " ++ prettyAt level v ++ "," ++
      prettyMembers level (m :: rest)

end

def pretty (v : Json) : String := prettyAt 0 v

end SyntaxQuery.Json
