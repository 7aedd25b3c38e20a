import SyntaxQuery.Position
import SyntaxQuery.Source.Outline

/-!
# Command line arguments

A command line names one command, with its files, positions and options. Three options belong to
the program and may stand before the command or after it. Options are spelled out after two
dashes; the value of an option follows it, or stands behind an equals sign. Whatever follows `--`
is no option.

Arguments are read from left to right, and each value is read as soon as it is taken. So of a
fault and a question for help, the one that comes first counts.
-/

namespace SyntaxQuery

/-- Something to do. -/
inductive Command where
  | analyze (file : String) (depth : Nat) (language : Option String)
  | args (file : String) (language : Option String)
  | info
  | methods (file describe language : Option String)
  | point (file : String) (place : Position) (language : Option String)
  | region (file : String) (start stop : Position) (language : Option String)
  | scopes (file : String) (place : Position) (language : Option String)
  | serve (socket : Option Nat)
deriving DecidableEq, Repr

namespace Command

/-- The file that a command reads. -/
def file? : Command → Option String
  | analyze file .. => some file
  | args file _ => some file
  | methods (some file) none _ => some file
  | point file .. => some file
  | region file .. => some file
  | scopes file .. => some file
  | _ => none

end Command

/-- The options of the program. -/
structure Options where
  json : Bool
  noColor : Bool
  logLevel : Option String
deriving DecidableEq, Repr

/-- What a command line asks for. -/
inductive Invocation where
  | run (options : Options) (command : Command)
  | version
  | help
deriving DecidableEq, Repr

/-- Why a command line asks for nothing that can be done. -/
inductive UsageError where
  | nothingAsked
  | noCommand
  | unknownCommand (name : String)
  | unexpected (argument : String)
  | repeated (option : String)
  | noValue (option : String)
  | badValue (value : String)
  | incomplete (command : String)
deriving DecidableEq, Repr

namespace UsageError

def message : UsageError → String
  | nothingAsked => ""
  | noCommand => "error: a command is required"
  | unknownCommand name => "error: unrecognized command '" ++ name ++ "'"
  | unexpected argument => "error: unexpected argument '" ++ argument ++ "'"
  | repeated option => "error: '--" ++ option ++ "' cannot be used multiple times"
  | noValue option => "error: '--" ++ option ++ "' requires a value"
  | badValue value => "error: invalid value '" ++ value ++ "'"
  | incomplete command => "error: '" ++ command ++ "' misses required arguments"

end UsageError

namespace CommandLine

/-- A value on the command line. -/
inductive Value where
  | text (s : String)
  | file (path : String)
  | place (p : Position)
  | depth (n : Nat)
  | socket (n : Nat)
deriving DecidableEq, Repr

/-- What a value stands for. -/
inductive ValueKind where
  | text | file | place | depth | socket
deriving DecidableEq, Repr

namespace ValueKind

/-- The number of a socket; minus zero is zero. -/
def readSocket : List Char → Except Text.NumeralError Nat
  | '-' :: c :: cs => Text.Numeral.readDigits 0 0 (c :: cs)
  | cs => Text.Numeral.read 65535 cs

/-- The value of this kind that is written `s`. A file has a name. -/
def read? (kind : ValueKind) (s : String) : Option Value :=
  match kind with
  | text => some (.text s)
  | file => if s = "" then none else some (.file s)
  | place => (Position.read s).toOption.map .place
  | depth => (Text.Numeral.read Text.maxWord64 s.toList).toOption.map .depth
  | socket => (readSocket s.toList).toOption.map .socket

end ValueKind

/-- What an argument list may hold: switches, options with a value, and operands in their order. -/
structure Accepted where
  switches : List String
  valued : List (String × ValueKind)
  operands : List ValueKind

namespace Accepted

/-- The options of the program. -/
def program : Accepted := ⟨["json", "no-color"], [("log-level", .text)], []⟩

/-- The options of the program, with those of a command and its operands. -/
def command (valued : List (String × ValueKind)) (operands : List ValueKind) : Accepted :=
  ⟨program.switches, program.valued ++ valued, operands⟩

/-- What the command called `name` accepts. -/
def ofName? : String → Option Accepted
  | "analyze" => some (command [("depth", .depth), ("language", .text)] [.file])
  | "args" => some (command [("language", .text)] [.file])
  | "info" => some (command [] [])
  | "methods" => some (command [("describe", .text), ("language", .text)] [.file])
  | "point" => some (command [("language", .text)] [.file, .place])
  | "region" => some (command [("language", .text)] [.file, .place, .place])
  | "scopes" => some (command [("language", .text)] [.file, .place])
  | "serve" => some (command [("port", .socket)] [])
  | _ => none

end Accepted

/-- What has been read from an argument list, latest first. -/
structure Taken where
  switches : List String
  values : List (String × Value)
  operands : List Value

namespace Taken

def none : Taken := ⟨[], [], []⟩

def value? (t : Taken) (option : String) : Option Value :=
  (t.values.find? fun v => v.1 = option).map (·.2)

/-- The text given for an option. -/
def text? (t : Taken) (option : String) : Option String :=
  match t.value? option with
  | some (.text s) => some s
  | _ => .none

/-- The depth of an outline. -/
def depth (t : Taken) : Nat :=
  match t.value? "depth" with
  | some (.depth n) => n
  | _ => Snapshot.defaultDepth

def socket? (t : Taken) : Option Nat :=
  match t.value? "port" with
  | some (.socket n) => some n
  | _ => .none

end Taken

/-- What one argument looks like. -/
inductive Form where
  | escape
  | long (name : String) (value : Option String)
  | short (letters : List Char)
  | plain

def form (argument : String) : Form :=
  match argument.toList with
  | ['-', '-'] => .escape
  | '-' :: '-' :: cs =>
    match cs.span (· ≠ '=') with
    | (name, []) => .long (String.ofList name) none
    | (name, _ :: value) => .long (String.ofList name) (some (String.ofList value))
  | '-' :: c :: cs => .short (c :: cs)
  | _ => .plain

/-- What stops the reading of an argument list before its end. -/
inductive Stop where
  | help
  | version
  | usage (e : UsageError)

/-- Take `s` as the value of an option. -/
def takeValue (t : Taken) (name : String) (kind : ValueKind) (s : String) : Except Stop Taken :=
  match kind.read? s with
  | some v => .ok { t with values := (name, v) :: t.values }
  | none => .error (.usage (.badValue s))

/-- Take the operand that comes next. -/
def takeOperand (accepted : Accepted) (t : Taken) (argument : String) : Except Stop Taken :=
  match accepted.operands[t.operands.length]? with
  | none => .error (.usage (.unexpected argument))
  | some kind =>
    match kind.read? argument with
    | some v => .ok { t with operands := v :: t.operands }
    | none => .error (.usage (.badValue argument))

/-- Take an option with a long name; `next` are the arguments after it. -/
def takeLong (accepted : Accepted) (t : Taken) (argument name : String) (value : Option String)
    (next : List String) : Except Stop (Taken × List String) :=
  if accepted.switches.contains name then
    if value.isSome then .error (.usage (.unexpected argument))
    else if t.switches.contains name then .error (.usage (.repeated name))
    else .ok ({ t with switches := name :: t.switches }, next)
  else
    match accepted.valued.lookup name with
    | some kind =>
      if (t.value? name).isSome then .error (.usage (.repeated name))
      else
        match value, next with
        | some v, next => (takeValue t name kind v).map (·, next)
        | none, v :: next =>
          match form v with
          | .plain => (takeValue t name kind v).map (·, next)
          | _ => .error (.usage (.noValue name))
        | none, [] => .error (.usage (.noValue name))
    | none =>
      if name = "help" ∧ value = none then .error .help
      else .error (.usage (.unexpected argument))

theorem eq_of_map_eq_ok {ε α β : Type} {x : Except ε α} {b c : β} {a : α}
    (h : x.map (·, b) = .ok (a, c)) : b = c := by
  cases x <;> simp [Except.map] at h
  exact h.2

theorem length_takeLong {accepted : Accepted} {t u : Taken} {argument name : String}
    {value : Option String} {next rest : List String}
    (h : takeLong accepted t argument name value next = .ok (u, rest)) :
    rest.length ≤ next.length := by
  unfold takeLong at h
  split at h
  · split at h
    · simp at h
    · split at h
      · simp at h
      · simp at h; simp [h]
  · split at h
    · split at h
      · simp at h
      · split at h
        · simp [eq_of_map_eq_ok h]
        · split at h
          · simp [eq_of_map_eq_ok h]
          · simp at h
        · simp at h
    · split at h <;> simp at h

/-- Read all arguments of a command. -/
def takeAll (accepted : Accepted) (t : Taken) (arguments : List String) : Except Stop Taken :=
  match arguments with
  | [] => .ok t
  | a :: next =>
    match form a with
    | .escape => next.foldlM (takeOperand accepted) t
    | .plain =>
      match takeOperand accepted t a with
      | .error s => .error s
      | .ok t => takeAll accepted t next
    | .short ('h' :: _) => .error .help
    | .short _ => .error (.usage (.unexpected a))
    | .long name value =>
      match h : takeLong accepted t a name value next with
      | .error s => .error s
      | .ok (t, rest) =>
        have := length_takeLong h
        takeAll accepted t rest
termination_by arguments.length
decreasing_by all_goals simp only [List.length_cons]; omega

/-- Read the arguments before the command: the options of the program, the name of the command if
there is one, and the arguments after it. -/
def takeProgram (t : Taken) (arguments : List String) :
    Except Stop (Taken × Option (String × List String)) :=
  match arguments with
  | [] => .ok (t, none)
  | a :: next =>
    match form a with
    | .escape =>
      match next with
      | [] => .ok (t, none)
      | b :: _ => .error (.usage (.unexpected b))
    | .plain => .ok (t, some (a, next))
    | .short ('h' :: _) => .error .help
    | .short ('V' :: _) => .error .version
    | .short _ => .error (.usage (.unexpected a))
    | .long name value =>
      if name = "version" ∧ value = none then .error .version
      else
        match h : takeLong .program t a name value next with
        | .error s => .error s
        | .ok (t, rest) =>
          have := length_takeLong h
          takeProgram t rest
termination_by arguments.length
decreasing_by simp only [List.length_cons]; omega

/-- The command called `name` with what has been taken for it. -/
def commandOf (name : String) (t : Taken) : Except UsageError Command :=
  let language := t.text? "language"
  match name, t.operands.reverse with
  | "analyze", [.file file] => .ok (.analyze file t.depth language)
  | "args", [.file file] => .ok (.args file language)
  | "info", [] => .ok .info
  | "methods", [] => .ok (.methods none (t.text? "describe") language)
  | "methods", [.file file] => .ok (.methods (some file) (t.text? "describe") language)
  | "point", [.file file, .place p] => .ok (.point file p language)
  | "region", [.file file, .place start, .place stop] => .ok (.region file start stop language)
  | "scopes", [.file file, .place p] => .ok (.scopes file p language)
  | "serve", [] => .ok (.serve t.socket?)
  | _, _ => .error (.incomplete name)

/-- The options of the program, wherever they stand; the one after the command counts first. -/
def optionsOf (before after : Taken) : Options where
  json := before.switches.contains "json" || after.switches.contains "json"
  noColor := before.switches.contains "no-color" || after.switches.contains "no-color"
  logLevel := (after.text? "log-level").or (before.text? "log-level")

def stopped : Stop → Except UsageError Invocation
  | .help => .ok .help
  | .version => .ok .version
  | .usage e => .error e

/-- What the command line `arguments` asks for. -/
def read (arguments : List String) : Except UsageError Invocation :=
  match takeProgram .none arguments with
  | .error s => stopped s
  | .ok (t, none) =>
    if t.switches.isEmpty && t.values.isEmpty then .error .nothingAsked else .error .noCommand
  | .ok (_, some ("help", rest)) =>
    match rest with
    | [] => .ok .help
    | [name] =>
      if name = "help" ∨ (Accepted.ofName? name).isSome then .ok .help
      else .error (.unknownCommand name)
    | _ :: a :: _ => .error (.unexpected a)
  | .ok (before, some (name, rest)) =>
    match Accepted.ofName? name with
    | none => .error (.unknownCommand name)
    | some accepted =>
      match takeAll accepted .none rest with
      | .error s => stopped s
      | .ok after => do
        let command ← commandOf name after
        return .run (optionsOf before after) command

end CommandLine

end SyntaxQuery
