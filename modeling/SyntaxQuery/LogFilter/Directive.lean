import SyntaxQuery.LogFilter
import SyntaxQuery.Text.Alphanumeric
import SyntaxQuery.Text.Blank
import SyntaxQuery.Text.Numeral
import SyntaxQuery.Text.Utf8

/-!
# Directives

The texts that are log filters for the program as it runs. A filter is a list of directives with
commas between them. A directive is a level alone, or it says of which messages it gives the level:
those of a target, of a span, and of a span with a field, as in `target[span{field=value}]=level`,
where each part may be left out.

The value of a field is a pattern. Patterns are not looked into, so every text counts as one.
-/

namespace SyntaxQuery.LogFilter

/-- Whether `s` is the name of a level, in either case, or its number. -/
def isLevel (s : String) : Bool :=
  match Text.Numeral.read Text.maxWord64 s.toList with
  | .ok n => n ≤ 5
  | .error _ => ["off", "error", "warn", "info", "debug", "trace"].any fun l => upper l = upper s

/-- Why a text is no directive. -/
inductive DirectiveFault where
  | invalid
  | level
deriving DecidableEq, Repr

def DirectiveFault.reason : DirectiveFault → String
  | invalid => "invalid filter directive"
  | level =>
    "error parsing level filter: expected one of \"off\", \"error\", \"warn\", \"info\", " ++
      "\"debug\", \"trace\", or a number 0-5"

/-- How far a directive has been read. -/
inductive DirectiveState where
  | start
  /-- In the target, which may turn out to be a level. -/
  | target
  | span
  /-- In the fields, of which the last has a character or not. -/
  | field (empty : Bool)
  /-- Behind the fields. -/
  | fields
  /-- Behind the span. -/
  | bracket
  /-- In the level, which begins at byte `first`. -/
  | level (first : Nat)
deriving DecidableEq, Repr

namespace DirectiveState

/-- Whether a target may begin with `c`. -/
def mayBegin (c : Char) : Bool :=
  c = '-' || c = ':' || c = '_' || Text.isAlphanumeric c

/-- The state after the character `c` at byte `place`, if it may stand there. -/
def next (place : Nat) (c : Char) : DirectiveState → Option DirectiveState
  | start => if c = '[' then some span else if mayBegin c then some target else none
  | target =>
    if c = '=' then some (level (place + 1)) else if c = '[' then some span else some target
  | span => if c = ']' then some bracket else if c = '\x7b' then some (field true) else some span
  | field empty =>
    if c = '\x7d' then if empty then none else some fields else some (field false)
  | fields => if c = ']' then some bracket else none
  | bracket => if c = '=' then some (level (place + 1)) else none
  | level first => some (level first)

/-- The state after the characters `cs`, of which the first is at byte `place`. -/
def run (s : DirectiveState) (place : Nat) : List Char → Option DirectiveState
  | [] => some s
  | c :: cs => (s.next place c).bind fun s => s.run (place + c.utf8Size) cs

end DirectiveState

/-- Why a text is no directive, if it is none. The text is read without the blanks at its ends, but
the level is taken from the whole text at the place counted without them; an empty level is left
out. -/
def directiveFault? (text : String) : Option DirectiveFault :=
  match DirectiveState.start.run 0 (Text.trim text.toList) with
  | some .target | some .bracket => none
  | some (.level first) =>
    let level := Text.slice text first text.utf8ByteSize
    if level = "" || isLevel level then none else some .level
  | _ => some .invalid

/-- Why a text is no filter, if it is none; nothing between two commas is no directive. -/
def fault? (text : String) : Option String :=
  ((text.toList.splitOn ',').filter (· ≠ [])).findSome? fun d =>
    (directiveFault? (String.ofList d)).map (·.reason)

end SyntaxQuery.LogFilter
