import SyntaxQuery.Json.Reader
import SyntaxQuery.Request.Decode

/-!
# Requests on a line

A request is an object with a method, and optionally an id and params, or an array of these three.
Members with other names are not looked at beyond their grammar. A line that is no request is
reported by the first thing that is wrong with it, unless it is no JSON value at all.
-/

namespace SyntaxQuery

/-- A request on a line. -/
structure Request where
  id : Json
  method : String
  params : Json
deriving Repr

/-- Why a line is no request: it is no JSON, or JSON of another form. -/
inductive RequestError where
  | notJson
  | decode (e : DecodeError)
deriving Repr

namespace Request

/-- The members of a request that have been met so far. -/
structure Members where
  id : Option Json
  method : Option String
  params : Option Json

/-- The value of a member that may be there only once. -/
def once {α : Type} (name : String) (before : Option α) (now : Except RequestError α) :
    Except RequestError (Option α) :=
  match before with
  | some _ => .error (.decode (.duplicateField name))
  | none => now.map some

/-- The value of a draft inside the request. -/
def valueOf (d : Json.Draft) : Except RequestError Json :=
  match d.value? (Json.maxDepth - 1) with
  | some v => .ok v
  | none => .error .notJson

/-- The method of a request: a text. -/
def methodOf (d : Json.Draft) : Except RequestError String := do
  match Decode.text (← valueOf d) with
  | .ok s => .ok s
  | .error e => .error (.decode e)

/-- Take over one member; members with other names are not looked at. -/
def takeMember (r : Members) : Option String × Json.Draft → Except RequestError Members
  | (none, _) => .error .notJson
  | (some name, d) =>
    if name = "id" then do return { r with id := ← once name r.id (valueOf d) }
    else if name = "method" then do return { r with method := ← once name r.method (methodOf d) }
    else if name = "params" then do return { r with params := ← once name r.params (valueOf d) }
    else .ok r

def ofMembers (members : List (Option String × Json.Draft)) : Except RequestError Request := do
  let r ← members.foldlM takeMember ⟨none, none, none⟩
  match r.method with
  | none => .error (.decode (.missingField "method"))
  | some method => return ⟨r.id.getD .null, method, r.params.getD .null⟩

/-- A request as an array of its id, its method and optionally its params. -/
def ofItems : List Json.Draft → Except RequestError Request
  | [] => .error (.decode (.tooShort 1 "Request" 3))
  | [id] => do
    let _ ← valueOf id
    .error (.decode (.tooShort 1 "Request" 3))
  | [id, method] => do return ⟨← valueOf id, ← methodOf method, .null⟩
  | id :: method :: params :: rest => do
    let r : Request := ⟨← valueOf id, ← methodOf method, ← valueOf params⟩
    if rest.isEmpty then return r else .error (.decode .trailing)

/-- The request of a draft. -/
def ofDraft : Json.Draft → Except RequestError Request
  | .object members => ofMembers members
  | .array items => ofItems items
  | d =>
    match d.value? Json.maxDepth with
    | some v => .error (.decode (.wrongType v "struct Request"))
    | none => .error .notJson

/-- The message for a draft that is no request: a text that is no value is reported as such,
whatever else is wrong with it. `<syntax>` stands for what the JSON reader says of such a text. -/
def failure (d : Json.Draft) (e : DecodeError) : String :=
  match d.value? Json.maxDepth with
  | some _ => e.reason
  | none => "<syntax>"

/-- The request on a line, or the message why there is none; as in `failure`, `<syntax>` stands for
what the JSON reader says of a text that is no value. -/
def read (line : List UInt8) : Except String Request :=
  match Json.Draft.read? line with
  | none => .error "<syntax>"
  | some d =>
    match ofDraft d with
    | .ok r => .ok r
    | .error .notJson => .error "<syntax>"
    | .error (.decode e) => .error (failure d e)

end Request

end SyntaxQuery
