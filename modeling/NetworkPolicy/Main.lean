import NetworkPolicy.Command
import Std.Time.DateTime.Timestamp

/-! The program: its command line over the disk of the machine that it runs on. A server runs until
the standard input ends. -/

namespace NetworkPolicy.Program

/-- What is at a path on the disk. -/
def entryAt (path : String) : IO (Option Entry) := do
  try
    return some (.file (← IO.FS.readBinFile path).toList)
  catch
    | .noFileOrDirectory .. => return none
    | _ => return some .directory

/-- Adds what is found on the disk along names from a place. -/
def look (f : Files) : List String → List String → IO Files
  | _, [] => return f
  | place, n :: ns => do
    let next := if n = ".." then place.tail else n :: place
    match f.entry? next, ← entryAt (Files.pathOf next) with
    | none, some e => look (f.put next e) next ns
    | _, _ => look f next ns

/-- Adds what is found on the disk along a path. -/
def lookAlong (f : Files) (path : String) : IO Files :=
  look f (if Files.isAbsolute path then [] else f.current) (Files.names path)

/-- The files of settings that a command names. -/
def settingsOf : Option Command → List String
  | some (.serve path) => [path]
  | some (.validate path) => [path]
  | _ => []

/-- The files that settings name. -/
def filesOf (c : Config) : List String :=
  c.logging.path.toList ++ c.database.path.toList ++ c.tokens.caPath.toList

/-- The machine as a command finds it. -/
def machine (c : Option Command) : IO Machine := do
  let current := (Files.names (← IO.currentDir).toString).reverse
  let now ← Std.Time.Timestamp.now
  let mut m : Machine :=
    { files := { current := current }, clock := now.toMillisecondsSinceUnixEpoch.val.toNat }
  for path in settingsOf c do
    m := { m with files := ← lookAlong m.files path }
    match Command.load path m with
    | .ok config =>
      for path in filesOf config do
        m := { m with files := ← lookAlong m.files path }
    | .error _ => pure ()
  return m

/-- Leaves the disk as the files say. -/
def store (before after : Files) : IO Unit := do
  for (place, e) in after.entries.reverse do
    if before.entry? place ≠ some e then
      match e with
      | .directory => IO.FS.createDirAll (Files.pathOf place)
      | .file content => IO.FS.writeBinFile (Files.pathOf place) ⟨content.toArray⟩

/-- Writes what a command has written. -/
def finish (m : Machine) (o : Command.Outcome) : IO UInt32 := do
  (← IO.getStdout).putStr o.stdout
  (← IO.getStderr).putStr o.stderr
  store m.files o.files
  return o.code.toUInt32

/-- Runs the server until the standard input ends. -/
def serve (path : String) (m : Machine) : IO UInt32 := do
  match Command.launch path m with
  | .error _ => finish m (Command.run m (.serve path))
  | .ok r =>
    let started := Command.written r
    let _ ← finish m started
    let _ ← (← IO.getStdin).readToEnd
    let ended := Command.written (Command.halt r)
    let rest := ended.stderr.toList.drop started.stderr.length
    finish { m with files := started.files } { ended with stderr := String.ofList rest }

end NetworkPolicy.Program

open NetworkPolicy in
/-- The program. -/
def main (args : List String) : IO UInt32 := do
  let c := Command.ofWords? args
  let m ← Program.machine c
  match c with
  | some (.serve path) => Program.serve path m
  | _ => Program.finish m (Command.runWords m args)
