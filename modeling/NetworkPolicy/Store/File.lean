import NetworkPolicy.Files
import NetworkPolicy.Store.Sqlite

/-! The file of an SQLite store: which paths are taken, and what an existing file must hold. -/

namespace NetworkPolicy.SqliteStore

/-- The path's parts as they count for its limits; a leading dot counts as one. -/
def parts (path : String) : List String :=
  (if Files.isAbsolute path then ["/"] else if (path.splitOn "/").head? = some "." then ["."]
    else []) ++ Files.names path

/-- Refuses paths beyond the limits, and directories. -/
def checkPath (f : Files) (path : String) : Except SqliteError Unit :=
  if Files.maxPath < path.utf8ByteSize then .error (.invalid "store path exceeds length limit")
  else if (parts path).any (Files.maxName < ·.utf8ByteSize) then
    .error (.invalid "store path contains an overlong component")
  else if f.get? path = some .directory then
    .error (.invalid "store path must be a file, not a directory")
  else .ok ()

/-- Creates the directory of the path. -/
def ensureDirectory (f : Files) (path : String) : Except SqliteError Files :=
  match (parts path).reverse with
  | [] => .error (.io "store path missing parent directory")
  | ["/"] => .error (.io "store path missing parent directory")
  | _ :: parent =>
    (f.createDirectories (Files.isAbsolute path)
      (parent.reverse.filter fun n => n != "/" && n != ".")).mapError fun e => .io e.message

/-- The longest path of a database from the root, in bytes; that of its journal is longer. -/
def maxPath : Nat := 504

/-- Where the database of a path is, if its path is not too long: two dots take the name before them
back, and nothing is in a file. -/
def locate? (f : Files) (path : String) : Option (List String) := do
  let start := if Files.isAbsolute path then [] else f.current
  let place ← (Files.names path).foldlM (fun place n =>
    match n, f.entry? place with
    | "..", _ => some place.tail
    | _, some (.file _) => none
    | n, _ => some (n :: place)) start
  if (Files.pathOf place).utf8ByteSize ≤ maxPath then some place else none

/-- The path of a database that is kept in no file. -/
def unfiled : String := ":memory:"

/-- A place for an empty database at a path: an empty file or none yet; no other content is one. -/
def prepareFile (f : Files) (path : String) : Except SqliteError Files :=
  if path = unfiled then .ok f
  else
    match Files.zeroAt? path, locate? f path with
    | some i, _ => .error (.db s!"nul byte found in provided data at position: {i}")
    | none, none => .error (.db s!"unable to open database file: {path}")
    | none, some place =>
      match f.entry? place with
      | some .directory => .error (.db s!"unable to open database file: {path}")
      | some (.file (_ :: _)) => .error (.db "file is not a database")
      | _ => .ok (f.put place (.file []))

/-- Opens the database at a path; also gives the files after it. -/
def openFile (f : Files) (path : String) (tagLength : TagLength) (poolSize : Nat) :
    Except SqliteError SqliteStore × Files :=
  match checkPath f path with
  | .error e => (.error e, f)
  | .ok () =>
    match ensureDirectory f path with
    | .error e => (.error e, f)
    | .ok f =>
      match prepareFile f path with
      | .error e => (.error e, f)
      | .ok f =>
        match openOn tagLength poolSize {} with
        | (.error e, _) => (.error e, f)
        | (.ok (), s) => (.ok s, f)

end NetworkPolicy.SqliteStore
