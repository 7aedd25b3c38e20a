import SyntaxQuery.Json.Writer
import SyntaxQuery.Provider
import SyntaxQuery.Request.Basic

/-!
# Requests by lines

A stream of requests is answered line by line: each line that is not blank is one request, and gets
one line of answer. A line that does not decode is answered by a failure and changes nothing.
-/

namespace SyntaxQuery

/-- The answer to a request. -/
def response (id : Json) (answer : Except Error Json) : Json :=
  match answer with
  | .ok v => .object [("id", id), ("result", v)]
  | .error e =>
    .object
      [("error", .object [("kind", .text e.kind), ("message", .text e.message)]), ("id", id)]

namespace Server

/-- The octets of a blank line: the space, the tab, the line feed, the form feed and the carriage
return. -/
def isSpace (b : UInt8) : Bool :=
  b = 0x20 || b = 0x09 || b = 0x0a || b = 0x0c || b = 0x0d

/-- Whether a line is a request at all. -/
def isBlankLine (line : List UInt8) : Bool := line.all isSpace

/-- The lines of a stream, without the octets that end them. Nothing after the last of these is no
line. -/
def lines (bytes : List UInt8) : List (List UInt8) :=
  match bytes with
  | [] => []
  | b :: rest =>
    if b = 0x0a then [] :: lines rest
    else
      match lines rest with
      | [] => [[b]]
      | line :: more => (b :: line) :: more

variable {κ : Type} [DecidableEq κ] (engine : Engine κ)

/-- Answer one line. -/
def answerLine (p : Provider κ) (line : List UInt8) : Json × Provider κ :=
  match Request.read line with
  | .error text => (response .null (.error (.json (.unplaced text))), p)
  | .ok r =>
    let (answer, p) := p.call engine r.method r.params
    (response r.id answer, p)

/-- Answer lines one after another; blank lines get no answer. -/
def answerLines (p : Provider κ) : List (List UInt8) → List String × Provider κ
  | [] => ([], p)
  | line :: rest =>
    if isBlankLine line then answerLines p rest
    else
      let (answer, p) := answerLine engine p line
      let (answers, p) := answerLines p rest
      (answer.compact :: answers, p)

/-- The answers to a stream of requests, one line each. -/
def answers (p : Provider κ) (bytes : List UInt8) : List String :=
  (answerLines engine p (lines bytes)).1

/-- What is written in answer to a stream of requests. -/
def serve (p : Provider κ) (bytes : List UInt8) : String :=
  String.join ((answers engine p bytes).map (· ++ "\n"))

end Server

end SyntaxQuery
