import SyntaxQuery.CommandLine.Run
import SyntaxQuery.Concrete.Table
import SyntaxQuery.Json.Reader
import SyntaxQuery.LogFilter.Directive

/-!
# The program

Concrete trees come from a file of tables, one JSON object on each line, that the environment
variable `NODESCOPE_PARSES` names; without it no source has a tree. Requests on standard input are
answered as they come.
-/

namespace SyntaxQuery.Program

/-- The octets of a file, or why it cannot be read. -/
def readOctets (path : String) : IO (Except ReadError ByteArray) := do
  try
    return .ok (← IO.FS.readBinFile path)
  catch e =>
    match e with
    | .noFileOrDirectory .. => return .error .notFound
    | .inappropriateType .. => return .error .isDirectory
    | e => return .error (.other (toString e))

/-- The tables of all lines that are tables. -/
def tablesOf (content : ByteArray) : List ParseTable :=
  (Server.lines content.toList).filterMap fun l => (Json.read? l).bind ParseTable.ofJson?

def loadTables : IO (List ParseTable) := do
  match ← IO.getEnv "NODESCOPE_PARSES" with
  | none => return []
  | some path =>
    match ← readOctets path with
    | .ok content => return tablesOf content
    | .error _ => return []

/-- Answer requests line by line until the input ends. -/
partial def serve (engine : Engine (List UInt8)) (p : Provider (List UInt8)) : IO Unit := do
  let stdin ← IO.getStdin
  let text ← stdin.getLine
  if text.isEmpty then return
  let (answers, p) := Server.answerLines engine p (Server.lines text.toUTF8.toList)
  let stdout ← IO.getStdout
  for a in answers do
    stdout.putStrLn a
  stdout.flush
  serve engine p

end SyntaxQuery.Program

open SyntaxQuery SyntaxQuery.Program in
def main (arguments : List String) : IO UInt32 := do
  match CommandLine.read arguments with
  | .error e =>
    IO.eprintln (if e = .nothingAsked then CommandLine.overview else e.message)
    return 2
  | .ok .version => IO.println ("nodescope " ++ Provider.version); return 0
  | .ok .help => IO.print CommandLine.overview; return 0
  | .ok (.run options command) =>
    let tables ← loadTables
    let engine : Engine (List UInt8) := ⟨ParseTable.find? tables, id, LogFilter.fault?⟩
    let config ← readOctets Config.fileName
    let source ← match command.file? with
      | some path => readOctets path
      | none => pure (.error .notFound)
    let around : Surroundings :=
      { file := fun path => if path = Config.fileName then config else source
        logFilter := ← IO.getEnv "RUST_LOG"
        input := [] }
    if command = .serve none then
      match CommandLine.provider engine around options with
      | .ok p => serve engine p; return 0
      | .error e =>
        IO.eprint (CommandLine.printed e.diagnostic)
        return UInt32.ofNat (CommandLine.exitCode e)
    let outcome := CommandLine.run engine around options command
    IO.print outcome.output
    IO.eprint outcome.diagnostics
    return UInt32.ofNat outcome.code
