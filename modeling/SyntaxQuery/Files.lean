/-!
# Files by name

What reading a file can give, and directories held in memory: a list of files by their paths, in
which every beginning of a path is a directory.
-/

namespace SyntaxQuery

/-- Why a file cannot be read. -/
inductive ReadError where
  | notFound
  | isDirectory
  | notDirectory
  | notText
  | nameTooLong
  | other (text : String)
deriving DecidableEq, Repr

namespace ReadError

def message : ReadError → String
  | notFound => "No such file or directory (os error 2)"
  | isDirectory => "Is a directory (os error 21)"
  | notDirectory => "Not a directory (os error 20)"
  | notText => "stream did not contain valid UTF-8"
  | nameTooLong => "File name too long (os error 36)"
  | other text => text

end ReadError

/-- The text of a file with these octets. -/
def decodeText (bytes : Except ReadError ByteArray) : Except ReadError String := do
  match String.fromUTF8? (← bytes) with
  | some s => .ok s
  | none => .error .notText

/-- A directory with all files below it, by the parts of their paths. -/
structure Directory where
  files : List (List String × ByteArray)

namespace Directory

/-- Whether a part of a path stays where it is. -/
def isStay (part : String) : Bool := part = "" || part = "."

/-- The directory with these files, named by paths with slashes; of two files with one path, the
later is kept. -/
def ofFiles (files : List (String × ByteArray)) : Directory :=
  ⟨files.reverse.map fun (name, content) =>
    ((name.splitOn "/").filter fun part => !isStay part, content)⟩

/-- The most octets of one name. -/
def maxName : Nat := 255

/-- The most octets of a path. -/
def maxPath : Nat := 4095

def file? (d : Directory) (path : List String) : Option ByteArray :=
  (d.files.find? fun f => f.1 = path).map (·.2)

def isDirectory (d : Directory) (path : List String) : Bool :=
  path.isEmpty || d.files.any fun f => path.isPrefixOf f.1 && path ≠ f.1

/-- Follow the parts of a path from a place in the directory; `none` is somewhere outside. -/
def follow (d : Directory) :
    Option (List String) → List String → Except ReadError (Option (List String))
  | place, [] => .ok place
  | none, part :: rest =>
    if isStay part || part = ".." then d.follow none rest
    else if maxName < part.utf8ByteSize then .error .nameTooLong
    else .error .notFound
  | some place, part :: rest =>
    if !d.isDirectory place then .error .notDirectory
    else if isStay part then d.follow (some place) rest
    else if part = ".." then
      d.follow (if place.isEmpty then none else some place.dropLast) rest
    else if maxName < part.utf8ByteSize then .error .nameTooLong
    else
      let next := place ++ [part]
      if (d.file? next).isSome || d.isDirectory next then d.follow (some next) rest
      else .error .notFound

/-- The content of the file at `path`. -/
def read (d : Directory) (path : String) : Except ReadError ByteArray :=
  if path = "" then .error .notFound
  else if maxPath < path.utf8ByteSize then .error .nameTooLong
  else do
    match ← d.follow (if path.startsWith "/" then none else some []) (path.splitOn "/") with
    | none => .error .isDirectory
    | some place =>
      match d.file? place with
      | some content => .ok content
      | none => .error .isDirectory

end Directory

end SyntaxQuery
