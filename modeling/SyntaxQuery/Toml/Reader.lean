import SyntaxQuery.Toml.Basic

/-!
# Reading TOML

Lines assign values to keys or open tables. All readers take characters from the front of a list
and give back what they leave; `none` means that the text breaks the grammar or uses a kind of
value that no configuration has. Values nest, so their reader counts down a bound on the nesting,
for which the number of characters is always enough.
-/

namespace SyntaxQuery.Toml

/-- What may stand between the parts of a line. -/
def isSpace (c : Char) : Bool := c = ' ' || c = '\t'

def skipSpaces (cs : List Char) : List Char := cs.dropWhile isSpace

/-- Whether `c` may stand in a comment or a text: no control other than the tab. -/
def isPrintable (c : Char) : Bool :=
  c = '\t' || 0x20 ≤ c.toNat && c.toNat ≤ 0x7e || 0x80 ≤ c.toNat

/-- The rest of the line after an optional comment. -/
def skipComment : List Char → List Char
  | '#' :: cs => cs.dropWhile isPrintable
  | cs => cs

/-- What follows the end of the line, if the line ends here. -/
def newline? : List Char → Option (List Char)
  | '\n' :: cs => some cs
  | '\r' :: '\n' :: cs => some cs
  | _ => none

/-- Skip spaces, comments and ends of lines. -/
def skipLines : Nat → List Char → List Char
  | 0, cs => cs
  | fuel + 1, cs =>
    match newline? (skipComment (skipSpaces cs)) with
    | some rest => skipLines fuel rest
    | none => skipComment (skipSpaces cs)

def hexDigit? (c : Char) : Option Nat :=
  if '0' ≤ c ∧ c ≤ '9' then some (c.toNat - '0'.toNat)
  else if 'a' ≤ c ∧ c ≤ 'f' then some (c.toNat - 'a'.toNat + 10)
  else if 'A' ≤ c ∧ c ≤ 'F' then some (c.toNat - 'A'.toNat + 10)
  else none

/-- The character whose number is written by the first `count` hexadecimal digits. -/
def codePoint? (count : Nat) (cs : List Char) : Option (Char × List Char) := do
  if cs.length < count then none
  let ds ← (cs.take count).mapM hexDigit?
  let n := ds.foldl (fun acc d => 16 * acc + d) 0
  if n.isValidChar then some (Char.ofNat n, cs.drop count) else none

/-- The character that a backslash and the front of `cs` stand for. -/
def escape? : List Char → Option (Char × List Char)
  | 'b' :: cs => some ('\x08', cs)
  | 't' :: cs => some ('\t', cs)
  | 'n' :: cs => some ('\n', cs)
  | 'f' :: cs => some ('\x0c', cs)
  | 'r' :: cs => some ('\r', cs)
  | '"' :: cs => some ('"', cs)
  | '\\' :: cs => some ('\\', cs)
  | 'u' :: cs => codePoint? 4 cs
  | 'U' :: cs => codePoint? 8 cs
  | _ => none

/-- A text between double quotes on one line, after the first quote. -/
def basicText? : Nat → List Char → Option (List Char × List Char)
  | 0, _ => none
  | fuel + 1, cs =>
    match cs with
    | '"' :: rest => some ([], rest)
    | '\\' :: rest => do
      let (c, rest) ← escape? rest
      let (found, rest) ← basicText? fuel rest
      return (c :: found, rest)
    | c :: rest =>
      if isPrintable c then do
        let (found, rest) ← basicText? fuel rest
        return (c :: found, rest)
      else none
    | [] => none

/-- A text between apostrophes on one line, after the first apostrophe. -/
def literalText? (cs : List Char) : Option (List Char × List Char) :=
  match cs.span fun c => isPrintable c && c ≠ '\'' with
  | (found, '\'' :: rest) => some (found, rest)
  | _ => none

/-- The end of a text over several lines: three quotes, before which one or two more may stand. -/
def closing? (quote : Char) (cs : List Char) : Option (List Char × List Char) :=
  let quotes := (cs.takeWhile (· = quote)).length
  if 3 ≤ quotes then
    let inside := min (quotes - 3) 2
    some (List.replicate inside quote, cs.drop (inside + 3))
  else none

/-- Skip the blanks and ends of lines after a backslash at the end of a line. -/
def skipBlankLines : List Char → List Char
  | '\r' :: '\n' :: cs => skipBlankLines cs
  | c :: cs => if isSpace c || c = '\n' then skipBlankLines cs else c :: cs
  | [] => []

/-- A text between triple double quotes, after the opening ones. -/
def longBasicText? : Nat → List Char → Option (List Char × List Char)
  | 0, _ => none
  | fuel + 1, cs =>
    match closing? '"' cs with
    | some (inside, rest) => some (inside, rest)
    | none =>
      match cs with
      | '\\' :: rest =>
        match newline? (skipSpaces rest) with
        | some rest => longBasicText? fuel (skipBlankLines rest)
        | none => do
          let (c, rest) ← escape? rest
          let (found, rest) ← longBasicText? fuel rest
          return (c :: found, rest)
      | c :: rest =>
        match newline? (c :: rest) with
        | some rest => do
          let (found, rest) ← longBasicText? fuel rest
          return ('\n' :: found, rest)
        | none =>
          if isPrintable c then do
            let (found, rest) ← longBasicText? fuel rest
            return (c :: found, rest)
          else none
      | [] => none

/-- A text between triple apostrophes, after the opening ones. -/
def longLiteralText? : Nat → List Char → Option (List Char × List Char)
  | 0, _ => none
  | fuel + 1, cs =>
    match closing? '\'' cs with
    | some (inside, rest) => some (inside, rest)
    | none =>
      match cs with
      | c :: rest =>
        match newline? (c :: rest) with
        | some rest => do
          let (found, rest) ← longLiteralText? fuel rest
          return ('\n' :: found, rest)
        | none =>
          if isPrintable c then do
            let (found, rest) ← longLiteralText? fuel rest
            return (c :: found, rest)
          else none
      | [] => none

/-- `cs` without an end of line at its front. -/
def dropNewline (cs : List Char) : List Char := (newline? cs).getD cs

/-- A text of any of the four forms. -/
def text? (cs : List Char) : Option (String × List Char) :=
  let content : Option (List Char × List Char) :=
    match cs with
    | '"' :: '"' :: '"' :: rest => longBasicText? (rest.length + 1) (dropNewline rest)
    | '\'' :: '\'' :: '\'' :: rest => longLiteralText? (rest.length + 1) (dropNewline rest)
    | '"' :: rest => basicText? (rest.length + 1) rest
    | '\'' :: rest => literalText? rest
    | _ => none
  content.map fun (found, rest) => (String.ofList found, rest)

/-- Whether `c` may stand in a key without quotes. -/
def isBare (c : Char) : Bool := c.isAlphanum || c = '_' || c = '-'

/-- A key of one part, quoted on one line or bare. -/
def simpleKey? (cs : List Char) : Option (String × List Char) :=
  match cs with
  | '"' :: rest =>
    (basicText? (rest.length + 1) rest).map fun (found, rest) => (String.ofList found, rest)
  | '\'' :: rest => (literalText? rest).map fun (found, rest) => (String.ofList found, rest)
  | _ =>
    match cs.span isBare with
    | ([], _) => none
    | (key, rest) => some (String.ofList key, rest)

/-- The parts of a dotted key. -/
def key? : Nat → List Char → Option (List String × List Char)
  | 0, _ => none
  | fuel + 1, cs => do
    let (part, rest) ← simpleKey? (skipSpaces cs)
    match skipSpaces rest with
    | '.' :: rest =>
      let (parts, rest) ← key? fuel rest
      return (part :: parts, rest)
    | _ => return ([part], rest)

/-- The value of digits of a base with single underscores between them. -/
def digits? (base : Nat) (cs : List Char) : Option Nat :=
  let groups := (String.ofList cs).splitOn "_"
  if groups.contains "" then none
  else do
    let ds ← (groups.flatMap String.toList).mapM hexDigit?
    if ds.all (· < base) then some (ds.foldl (fun acc d => base * acc + d) 0) else none

/-- The integer written by `cs`, within a signed word of 64 bits. -/
def integer? (cs : List Char) : Option Int := do
  let n : Int ← match cs with
    | '0' :: 'x' :: ds => (digits? 16 ds).map Int.ofNat
    | '0' :: 'o' :: ds => (digits? 8 ds).map Int.ofNat
    | '0' :: 'b' :: ds => (digits? 2 ds).map Int.ofNat
    | '-' :: ds => (decimal? ds).map fun n => -(n : Int)
    | '+' :: ds => (decimal? ds).map Int.ofNat
    | ds => (decimal? ds).map Int.ofNat
  if -9223372036854775808 ≤ n ∧ n ≤ 9223372036854775807 then some n else none
where
  /-- Decimal digits without a superfluous leading zero. -/
  decimal? : List Char → Option Nat
    | ['0'] => some 0
    | '0' :: _ => none
    | ds => digits? 10 ds

/-- Whether `c` may stand in an integer. -/
def isNumeric (c : Char) : Bool := c.isAlphanum || c = '_' || c = '+' || c = '-' || c = '.'

mutual

/-- A value. -/
def value? : Nat → List Char → Option (Toml × List Char)
  | 0, _ => none
  | fuel + 1, cs =>
    match cs with
    | '[' :: rest => (items? fuel rest).map fun (items, rest) => (.array items, rest)
    | '\x7b' :: rest =>
      match skipSpaces rest with
      | '\x7d' :: rest => some (.table [], rest)
      | rest =>
        (pairs? fuel rest []).map fun (entries, rest) => (.table (ofEntries entries), rest)
    | '"' :: _ => (text? cs).map fun (s, rest) => (.text s, rest)
    | '\'' :: _ => (text? cs).map fun (s, rest) => (.text s, rest)
    | _ =>
      (integer? (cs.takeWhile isNumeric)).map fun n => (.integer n, cs.dropWhile isNumeric)

/-- The items of an array, after its bracket or after a comma. -/
def items? : Nat → List Char → Option (List Toml × List Char)
  | 0, _ => none
  | fuel + 1, cs =>
    match skipLines (cs.length + 1) cs with
    | ']' :: rest => some ([], rest)
    | cs => do
      let (v, rest) ← value? fuel cs
      match skipLines (rest.length + 1) rest with
      | ']' :: rest => return ([v], rest)
      | ',' :: rest =>
        let (vs, rest) ← items? fuel rest
        return (v :: vs, rest)
      | _ => none

/-- The pairs of a table on one line, of which those in `t` are read. -/
def pairs? : Nat → List Char → Table → Option (Table × List Char)
  | 0, _, _ => none
  | fuel + 1, cs, t => do
    let (key, rest) ← key? (cs.length + 1) cs
    match skipSpaces rest with
    | '=' :: rest =>
      let (v, rest) ← value? fuel (skipSpaces rest)
      let t ← t.assign? key v
      match skipSpaces rest with
      | '\x7d' :: rest => return (t, rest)
      | ',' :: rest => pairs? fuel rest t
      | _ => none
    | _ => none

end

/-- A document read so far: its root table and the path of the table that is open. -/
structure Document where
  root : Table
  current : List String

/-- A line that is neither empty nor a comment alone. -/
def statement? (d : Document) (cs : List Char) : Option (Document × List Char) :=
  match cs with
  | '[' :: '[' :: _ => none
  | '[' :: rest => do
    let (path, rest) ← key? (rest.length + 1) rest
    match skipSpaces rest with
    | ']' :: rest =>
      let root ← d.root.open? path
      return (⟨root, path⟩, rest)
    | _ => none
  | _ => do
    let (path, rest) ← key? (cs.length + 1) cs
    match skipSpaces rest with
    | '=' :: rest =>
      let (v, rest) ← value? (rest.length + 1) (skipSpaces rest)
      let root ← d.root.assignIn? d.current path v
      return (⟨root, d.current⟩, rest)
    | _ => none

/-- The lines of a document. -/
def lines? : Nat → Document → List Char → Option Document
  | 0, _, _ => none
  | fuel + 1, d, cs =>
    match skipLines (cs.length + 1) cs with
    | [] => some d
    | cs => do
      let (d, rest) ← statement? d cs
      match skipComment (skipSpaces rest) with
      | [] => return d
      | rest => lines? fuel d (← newline? rest)

/-- Read a document; a byte order mark at its start does not count. -/
def read? (text : String) : Option (List (String × Toml)) :=
  let cs := match text.toList with
    | '\ufeff' :: cs => cs
    | cs => cs
  (lines? (cs.length + 1) ⟨[], []⟩ cs).map fun d => ofEntries d.root

end SyntaxQuery.Toml
