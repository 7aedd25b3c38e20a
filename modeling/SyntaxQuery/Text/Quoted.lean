import SyntaxQuery.Text.Escaped

/-!
# Quoted text

A text between double quotes on one line. The quote, the backslash and the four common controls
have short forms; every other character without a shape of its own is written by its number in
hexadecimal.
-/

namespace SyntaxQuery.Text

/-- `n` in lower-case hexadecimal, without leading zeros. -/
def hex (n : Nat) : String :=
  String.ofList (Nat.toDigits 16 n)

/-- How `c` is written inside quotes. -/
def quotedChar (c : Char) : String :=
  if c = '\x00' then "\\0"
  else if c = '\t' then "\\t"
  else if c = '\n' then "\\n"
  else if c = '\r' then "\\r"
  else if c = '"' then "\\\""
  else if c = '\\' then "\\\\"
  else if isEscaped c then "\\u\x7b" ++ hex c.toNat ++ "\x7d"
  else c.toString

/-- `s` between double quotes. -/
def quoted (s : String) : String :=
  "\"" ++ String.join (s.toList.map quotedChar) ++ "\""

end SyntaxQuery.Text
