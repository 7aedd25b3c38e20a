import SyntaxQuery.Error

/-!
# Log filters

Which messages are written is up to a filter. Filters are read and applied by the software that
writes the messages; all that counts here is which texts are filters, so `fault?` tells why a text
is none. The filter of a process comes from its command line, its environment or its configuration,
and can be replaced later.
-/

namespace SyntaxQuery

/-- A filter in force, by the text it was read from. -/
structure LogFilter where
  text : String
deriving DecidableEq, Repr

namespace LogFilter

/-- `s` with its ASCII letters in upper case. -/
def upper (s : String) : String := String.ofList (s.toList.map Char.toUpper)

/-- The filter that a name of a level stands for, in either case; other texts stand for
themselves. -/
def directive (level : String) : String :=
  let name := upper level
  if name = "CRITICAL" ∨ name = "ERROR" then "error"
  else if name = "DEBUG" then "debug"
  else if name = "INFO" then "info"
  else if name = "TRACE" then "trace"
  else if name = "WARN" ∨ name = "WARNING" then "warn"
  else level

/-- The level of a process that says nothing about it. -/
def standard : String := "info"

variable (fault? : String → Option String)

/-- The filter for a level or a filter text. -/
def ofLevel (level : String) : Except Error LogFilter :=
  match fault? (directive level) with
  | none => .ok ⟨directive level⟩
  | some reason => .error (.logFilter (directive level) reason)

/-- The filter a process begins with: from its command line, else from its environment if that can
be read, else from its configuration, else for the standard level. -/
def initial (flag environment config : Option String) : Except Error LogFilter :=
  match flag with
  | some level => ofLevel fault? level
  | none =>
    match environment.filter fun text => (fault? text).isNone with
    | some text => .ok ⟨text⟩
    | none => ofLevel fault? (config.getD standard)

end LogFilter

end SyntaxQuery
