/-!
# TOML values

A configuration holds integers, texts, arrays and tables; the other values of the format are
nowhere allowed in one and are not read.

A table grows by assignments to keys, which may be dotted, and by headers. `Table.assign?` and
`Table.open?` refuse to define anything twice, to look for keys in something that is no table, and
to add to a table that was written whole.
-/

namespace SyntaxQuery

/-- A value of a configuration. -/
inductive Toml where
  | integer (n : Int)
  | text (s : String)
  | array (items : List Toml)
  | table (entries : List (String × Toml))
deriving Repr, Inhabited

namespace Toml

/-- How a table came about: by a dotted key, by its own header, or by the header of a table inside
it. -/
inductive Origin where
  | dotted
  | header
  | implied
deriving DecidableEq, Repr

/-- An entry of a table that is still growing. -/
inductive Entry where
  | value (v : Toml)
  | table (origin : Origin) (entries : List (String × Entry))
deriving Repr, Inhabited

/-- The entries of a growing table, each key once. -/
abbrev Table := List (String × Entry)

namespace Table

/-- The entry of a key. -/
def find? (t : Table) (key : String) : Option Entry :=
  (List.find? (fun e => e.1 = key) t).map (·.2)

/-- Set the entry of a key, in its old place or last. -/
def set (key : String) (entry : Entry) : Table → Table
  | [] => [(key, entry)]
  | (k, e) :: rest => if k = key then (k, entry) :: rest else (k, e) :: set key entry rest

/-- Assign a value to a dotted key. -/
def assign? : List String → Toml → Table → Option Table
  | [], _, _ => none
  | [key], v, t =>
    match t.find? key with
    | none => some (t.set key (.value v))
    | some _ => none
  | key :: path, v, t =>
    match t.find? key with
    | none => (assign? path v []).map fun sub => t.set key (.table .dotted sub)
    | some (.table .header _) => none
    | some (.table origin sub) => (assign? path v sub).map fun sub => t.set key (.table origin sub)
    | some (.value _) => none

/-- Write the header of the table at `path`. -/
def open? : List String → Table → Option Table
  | [], _ => none
  | [key], t =>
    match t.find? key with
    | none => some (t.set key (.table .header []))
    | some (.table .implied sub) => some (t.set key (.table .header sub))
    | some _ => none
  | key :: path, t =>
    match t.find? key with
    | none => (open? path []).map fun sub => t.set key (.table .implied sub)
    | some (.table .dotted _) => none
    | some (.table origin sub) => (open? path sub).map fun sub => t.set key (.table origin sub)
    | some (.value _) => none

/-- Assign a value to a dotted key in the table at `current`. -/
def assignIn? : (current : List String) → List String → Toml → Table → Option Table
  | [], path, v, t => assign? path v t
  | key :: rest, path, v, t =>
    match t.find? key with
    | some (.table origin sub) =>
      (assignIn? rest path v sub).map fun sub => t.set key (.table origin sub)
    | _ => none

end Table

mutual

/-- The value of a finished entry. -/
def ofEntry : Entry → Toml
  | .value v => v
  | .table _ entries => .table (ofEntries entries)

def ofEntries : List (String × Entry) → List (String × Toml)
  | [] => []
  | (key, e) :: rest => (key, ofEntry e) :: ofEntries rest

end

end Toml

end SyntaxQuery
