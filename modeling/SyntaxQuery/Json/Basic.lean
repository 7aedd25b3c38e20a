import SyntaxQuery.Json.Number

/-!
# JSON values

The members of an object are kept in increasing order of their names, each name once; `ofMembers`
brings any list of members into this form, the last member of a name winning.
-/

namespace SyntaxQuery

/-- A JSON value. -/
inductive Json where
  | null
  | bool (b : Bool)
  | number (n : Json.Number)
  | text (s : String)
  | array (items : List Json)
  | object (members : List (String × Json))
deriving Repr, Inhabited

namespace Json

/-- Set the member `name` of a list in increasing order of names. -/
def insertMember {α : Type} (name : String) (value : α) : List (String × α) → List (String × α)
  | [] => [(name, value)]
  | (n, v) :: rest =>
    if name < n then (name, value) :: (n, v) :: rest
    else if name = n then (name, value) :: rest
    else (n, v) :: insertMember name value rest

/-- Members in increasing order of their names, the last of each name. -/
def sortMembers {α : Type} (members : List (String × α)) : List (String × α) :=
  members.foldl (fun acc m => insertMember m.1 m.2 acc) []

/-- The object with these members. -/
def ofMembers (members : List (String × Json)) : Json :=
  .object (sortMembers members)

/-- The member `name` of a list of members. -/
def member? {α : Type} (members : List (String × α)) (name : String) : Option α :=
  (members.find? fun m => m.1 = name).map (·.2)

/-- The member `name` of an object; other values have none. -/
def get? : Json → String → Option Json
  | .object members, name => member? members name
  | _, _ => none

def ofNat (n : Nat) : Json := .number (.integer n)

def ofOption {α : Type} (f : α → Json) : Option α → Json
  | none => .null
  | some a => f a

def ofTexts (texts : List String) : Json := .array (texts.map .text)

end Json

end SyntaxQuery
