import NetworkPolicy.Config.Example
import NetworkPolicy.Config.Load
import NetworkPolicy.Server.Startup

/-! The command line: what its words ask for, and what comes of it. -/

namespace NetworkPolicy

inductive Command where
  | serve (path : String)
  | validate (path : String)
  | printExample
  | version
  | help
  deriving DecidableEq, Repr

namespace Command

/-! ### Reading the words -/

/-- Whether a word asks for the option of that name or of that letter. Letters may stand together:
the first one counts. -/
def asks (word name : String) (letter : Char) : Bool :=
  word == name || ['-', letter].isPrefixOf word.toList

def asksHelp (word : String) : Bool := asks word "--help" 'h'

/-- Whether a word is an option; a lone dash is not. -/
def isOption (word : String) : Bool := word.toList.head? == some '-' && word != "-"

/-- The text after an option's name and an equals sign. -/
def attached? (name word : String) : Option String :=
  let start := (name ++ "=").toList
  if start.isPrefixOf word.toList then some (String.ofList (word.toList.drop start.length))
  else none

/-- Reads the words of a command that takes a file of settings, which is named once. -/
def readPath (make : String → Command) : Option String → List String → Option Command
  | path, [] => path.map make
  | path, ["--"] => path.map make
  | path, word :: rest =>
    if asksHelp word then some .help
    else if path.isSome then none
    else if word = "--config" then
      match rest with
      | value :: rest =>
        if value.isEmpty || isOption value then none else readPath make (some value) rest
      | [] => none
    else
      match attached? "--config" word with
      | some value => if value.isEmpty then none else readPath make (some value) rest
      | none => none

/-- Reads the words of a command about settings. -/
def readConfig : List String → Option Command
  | [] => none
  | word :: rest =>
    if asksHelp word then some .help
    else if word = "validate" then readPath .validate none rest
    else if word = "example" then
      match rest with
      | [] => some .printExample
      | ["--"] => some .printExample
      | next :: _ => if asksHelp next then some .help else none
    else none

/-- The command that the words ask for, if they ask for one. -/
def ofWords? : List String → Option Command
  | [] => none
  | word :: rest =>
    if asksHelp word then some .help
    else if asks word "--version" 'V' then some .version
    else if word = "serve" then readPath .serve none rest
    else if word = "config" then readConfig rest
    else none

/-! ### Carrying it out -/

/-- How the program ends, what it has written, and the files as it leaves them. -/
structure Outcome where
  code : Nat := 0
  stdout : String := ""
  stderr : String := ""
  files : Files

/-- What is written where the words ask for nothing that there is. -/
def usage : String :=
  "Usage: policy-server serve --config <PATH>\n" ++
  "       policy-server config validate --config <PATH>\n" ++
  "       policy-server config example\n" ++
  "       policy-server --version\n"

def versionText : String := "policy-server 0.1.0\n"

/-- The settings of a file, or why there are none. -/
def load (path : String) (m : Machine) : Except String Config :=
  (Config.load m.files path).mapError fun e => s!"failed to load config {path}: {e.message}"

/-- No other service can be reached. -/
def isolated : Client.Transport Unit := fun _ t => (.error "error sending request", t)

/-- Starts the server with the settings of a file. -/
def launch (path : String) (m : Machine) : Except String (Startup.Ready Unit) := do
  let c ← load path m
  let ready ← (Startup.build c m isolated ()).mapError fun e =>
    s!"policy server init failed: {e.message}"
  let listening ← (Startup.listen c.server m).mapError fun e =>
    s!"policy server failed: {e.message}"
  let ((), world) := (ready.service.logStart listening).run ready.world
  return { ready with world := world }

/-- Ends a server that was started. -/
def halt (r : Startup.Ready Unit) : Startup.Ready Unit :=
  let ((), world) := r.service.logExit.run r.world
  { r with world := world }

/-- What a server has written so far. -/
def written (r : Startup.Ready Unit) : Outcome :=
  match r.world.log with
  | .stderr lines => { stderr := "".intercalate lines, files := r.files }
  | .file _ files => { files := files }
  | _ => { files := r.files }

/-- Carries a command out; a server is ended as soon as it runs. -/
def run (m : Machine) : Command → Outcome
  | serve path =>
    match launch path m with
    | .ok r => written (halt r)
    | .error e => { code := 1, stderr := e ++ "\n", files := m.files }
  | validate path =>
    match load path m with
    | .ok _ => { stdout := "config ok\n", files := m.files }
    | .error e => { code := 1, stderr := e ++ "\n", files := m.files }
  | printExample => { stdout := Config.exampleText, files := m.files }
  | version => { stdout := versionText, files := m.files }
  | help => { stdout := usage, files := m.files }

/-- Carries out what the words ask for. -/
def runWords (m : Machine) (words : List String) : Outcome :=
  match ofWords? words with
  | some c => run m c
  | none => { code := 2, stderr := usage, files := m.files }

end Command
end NetworkPolicy
