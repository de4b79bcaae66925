/-! A file system: where paths lead, and what is found there. -/

namespace NetworkPolicy

/-- Why the system refuses to use a path. -/
inductive FileError where
  | notFound
  | exists
  | notDirectory
  | isDirectory
  | nameTooLong
  /-- No name has a character of code zero. -/
  | zeroInName
  deriving DecidableEq, Repr

/-- The error as the system words it. -/
def FileError.message : FileError → String
  | notFound => "No such file or directory (os error 2)"
  | .exists => "File exists (os error 17)"
  | notDirectory => "Not a directory (os error 20)"
  | isDirectory => "Is a directory (os error 21)"
  | nameTooLong => "File name too long (os error 36)"
  | zeroInName => "file name contained an unexpected NUL byte"

/-- What a path leads to. -/
inductive Entry where
  | directory
  | file (content : List UInt8)
  deriving DecidableEq, Repr

/-- Directories and files by their place, which is a list of names from the root, last name first.
The root, the current directory and those around it are always directories. -/
structure Files where
  entries : List (List String × Entry) := []
  current : List String := []
  deriving DecidableEq, Repr

namespace Files

/-- The longest name and the longest path, in bytes. -/
def maxName : Nat := 255

@[inherit_doc maxName]
def maxPath : Nat := 4096

/-- What a path names one after the other; empty names stand for nothing. -/
def steps (path : String) : List String := (path.splitOn "/").filter (· != "")

/-- A path's names without dots, which stand for the place where they are met. -/
def names (path : String) : List String := (steps path).filter (· != ".")

/-- Where a text has its first character of code zero, in bytes. -/
def zeroAt? (s : String) : Option Nat := s.toUTF8.toList.findIdx? (· == 0)

/-- Whether a path starts at the root. -/
def isAbsolute (path : String) : Bool := path.toList.head? == some '/'

/-- What is found at a place. -/
def entry? (f : Files) (place : List String) : Option Entry :=
  if place.isSuffixOf f.current then some .directory
  else (f.entries.find? (·.1 == place)).map (·.2)

/-- Follows names from a place; all but the last must be directories. -/
def follow (f : Files) : List String → List String → Except FileError (List String)
  | place, [] => .ok place
  | place, n :: ns =>
    match f.entry? place with
    | none => .error .notFound
    | some (.file _) => .error .notDirectory
    | some .directory =>
      if maxName < n.utf8ByteSize then .error .nameTooLong
      else f.follow (if n = ".." then place.tail else if n = "." then place else n :: place) ns

/-- The place of a path; what is there need not exist. -/
def place (f : Files) (path : String) : Except FileError (List String) := do
  if (zeroAt? path).isSome then throw .zeroInName
  if path.isEmpty then throw .notFound
  if maxPath ≤ path.utf8ByteSize then throw .nameTooLong
  let p ← f.follow (if isAbsolute path then [] else f.current) (steps path)
  if path.toList.getLast? = some '/' then
    match f.entry? p with
    | some (.file _) => throw .notDirectory
    | none => throw .isDirectory
    | some .directory => return p
  return p

/-- What a path leads to, if anything. -/
def get? (f : Files) (path : String) : Option Entry :=
  match f.place path with
  | .ok p => f.entry? p
  | .error _ => none

/-- The path of a place from the root. -/
def pathOf (place : List String) : String := "/" ++ "/".intercalate place.reverse

/-- Puts an entry at a place. -/
def put (f : Files) (place : List String) (e : Entry) : Files :=
  { f with entries := (place, e) :: f.entries.filter (·.1 != place) }

/-- The content of a file. -/
def read (f : Files) (path : String) : Except FileError (List UInt8) := do
  match f.entry? (← f.place path) with
  | none => throw .notFound
  | some .directory => throw .isDirectory
  | some (.file content) => return content

/-- Creates or replaces a file. -/
def write (f : Files) (path : String) (content : List UInt8) : Except FileError Files := do
  let p ← f.place path
  if f.entry? p = some .directory then throw .isDirectory
  return f.put p (.file content)

/-- Opens a file for appending, and creates it if there is none; gives its place. -/
def openAppend (f : Files) (path : String) : Except FileError (List String × Files) := do
  let p ← f.place path
  match f.entry? p with
  | none => return (p, f.put p (.file []))
  | some .directory => throw .isDirectory
  | some (.file _) => return (p, f)

/-- Adds bytes to the file at a place. -/
def append (f : Files) (place : List String) (bytes : List UInt8) : Files :=
  match f.entry? place with
  | some (.file content) => f.put place (.file (content ++ bytes))
  | _ => f

/-- Creates the directory that names lead to, and those before it, if they do not exist. -/
def createDirectories (f : Files) (absolute : Bool) (path : List String) :
    Except FileError Files :=
  if path.any fun n => (zeroAt? n).isSome then .error .zeroInName
  else path.foldlM (fun (p : Files × List String) n =>
      let (f, place) := p
      let next := if n = ".." then place.tail else n :: place
      match f.entry? place, f.entry? next with
      | some (.file _), _ => .error .notDirectory
      | _, some .directory => .ok (f, next)
      | _, some (.file _) => .ok (f, next)
      | _, none => .ok (f.put next .directory, next))
    (f, if absolute then [] else f.current) >>= fun (f, place) =>
      match f.entry? place with
      | some (.file _) => .error .exists
      | _ => .ok f

end Files
end NetworkPolicy
