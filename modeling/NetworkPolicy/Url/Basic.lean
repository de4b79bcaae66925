import NetworkPolicy.Url.Form
import NetworkPolicy.Url.Host

/-! URLs: their parts, how a text is read as one, and how one is written. -/

namespace NetworkPolicy

namespace Url

/-- What stands between the slashes and the path. -/
structure Authority where
  user : List Char := []
  password : Option (List Char) := none
  host : Host
  /-- None for the usual port of the scheme. -/
  port : Option Nat := none
  deriving DecidableEq, Repr

inductive Path where
  /-- No more than a text: nothing is relative to it. -/
  | bare (text : List Char)
  | segments (names : List (List Char))
  deriving DecidableEq, Repr

end Url

/-- A URL. All texts in it are held encoded. -/
structure Url where
  scheme : List Char
  authority : Option Url.Authority := none
  path : Url.Path := .segments []
  query : Option (List Char) := none
  fragment : Option (List Char) := none
  deriving DecidableEq, Repr

namespace Url

/-- Schemes with known rules: a host is always named, and a backslash counts as a slash. -/
def isSpecial (scheme : List Char) : Bool :=
  ["http", "https", "ws", "wss", "ftp", "file"].any (·.toList == scheme)

def isFile (scheme : List Char) : Bool := scheme == "file".toList

/-- The port that is meant where none is written. -/
def defaultPort? (scheme : List Char) : Option Nat :=
  if scheme == "http".toList || scheme == "ws".toList then some 80
  else if scheme == "https".toList || scheme == "wss".toList then some 443
  else if scheme == "ftp".toList then some 21
  else none

/-- Whether a character ends the part before the path, or a part of the path. -/
def isSlash (special : Bool) (c : Char) : Bool := c == '/' || (special && c == '\\')

def isEnd (special : Bool) (c : Char) : Bool := isSlash special c || c == '?' || c == '#'

/-! ### Which characters are kept -/

def isVisible (c : Char) : Bool := ' ' ≤ c && c ≤ '~'

def keptInFragment (c : Char) : Bool := isVisible c && !" \"<>`".toList.contains c

def keptInPath (c : Char) : Bool := keptInFragment c && !(['#', '?', '{', '}'].contains c)

def keptInUser (c : Char) : Bool := keptInPath c && !"/:;=@[\\]^|".toList.contains c

def keptInQuery (special : Bool) (c : Char) : Bool :=
  isVisible c && !" \"#<>".toList.contains c && !(special && c == '\'')

/-! ### Reading -/

/-- The text without the characters that count for nothing: blanks and controls at the ends, tabs
and line ends anywhere. -/
def clean (cs : List Char) : List Char :=
  let cs := cs.dropWhile (· ≤ ' ')
  let cs := (cs.reverse.dropWhile (· ≤ ' ')).reverse
  cs.filter fun c => c != '\t' && c != '\n' && c != '\r'

/-- The scheme in small letters, and the text after its colon. -/
def scheme? (cs : List Char) : Option (List Char × List Char) :=
  let name := cs.takeWhile fun c => c.isAlphanum || c == '+' || c == '-' || c == '.'
  match name, cs.drop name.length with
  | c :: _, ':' :: rest => if c.isAlpha then some (name.map Char.toLower, rest) else none
  | _, _ => none

/-- The user and the password before the last at sign, encoded, and the text after it. -/
def readUser (special : Bool) (cs : List Char) :
    Except Fault (List Char × Option (List Char) × List Char) :=
  let front := cs.takeWhile (!isEnd special ·)
  let hostText := (front.reverse.takeWhile (· != '@')).reverse
  if hostText.length = front.length then .ok ([], none, cs)
  else
    let user := front.take (front.length - hostText.length - 1)
    let rest := cs.drop (user.length + 1)
    if user.isEmpty && rest.head?.any (isEnd special) then .error .emptyHost
    else
      let name := user.takeWhile (· != ':')
      let password := user.drop (name.length + 1)
      .ok (Percent.encode keptInUser name,
        if password.isEmpty then none else some (Percent.encode keptInUser password), rest)

/-- The characters of a host: up to a colon outside brackets, or the end of the authority. -/
def hostText (special : Bool) : Bool → List Char → List Char
  | _, [] => []
  | inside, c :: cs =>
    if isEnd special c || (c == ':' && !inside) then []
    else c :: hostText special (if c == '[' then true else if c == ']' then false else inside) cs

/-- The port after a colon; the usual port is left out. -/
def readPort (scheme cs : List Char) : Except Fault (Option Nat × List Char) :=
  let ds := cs.takeWhile Char.isDigit
  let rest := cs.drop ds.length
  let port := Number.ofDigits 10 ds
  if 65535 < port || rest.head?.any (!isEnd true ·) then .error .badPort
  else if ds.isEmpty || defaultPort? scheme = some port then .ok (none, rest)
  else .ok (some port, rest)

/-- The authority at the front of a text, and the text after it. -/
def readAuthority (scheme cs : List Char) : Except Fault (Authority × List Char) := do
  let special := isSpecial scheme
  let (user, password, cs) ← readUser special cs
  let name := hostText special false cs
  let rest := cs.drop name.length
  if special && name.isEmpty then throw .emptyHost
  let host ← if special then Host.parse name else Host.parseOpaque name
  if name.isEmpty && (rest.head? = some ':' || !user.isEmpty || password.isSome) then
    throw .emptyHost
  let (port, rest) ← if rest.head? = some ':' then readPort scheme rest.tail else .ok (none, rest)
  return (⟨user, password, host, port⟩, rest)

/-- A segment that stands for the one before, however its dots are written. -/
def isParent (cs : List Char) : Bool :=
  let cs := cs.map Char.toLower
  ["..", ".%2e", "%2e.", "%2e%2e"].any (·.toList == cs)

/-- A segment that stands for nothing. -/
def isCurrent (cs : List Char) : Bool :=
  let cs := cs.map Char.toLower
  [".", "%2e"].any (·.toList == cs)

/-- Adds segments to those before, last first. -/
def addSegments (before : List (List Char)) : List (List Char) → List (List Char)
  | [] => before
  | [s] =>
    if isParent s then [] :: before.tail
    else if isCurrent s then [] :: before
    else s :: before
  | s :: ss =>
    if isParent s then addSegments before.tail ss
    else if isCurrent s then addSegments before ss
    else addSegments (s :: before) ss

/-- The segments of a path, which begins with a slash unless it is empty. -/
def readPath (special : Bool) (cs : List Char) : List (List Char) :=
  match cs with
  | [] => if special then [[]] else []
  | c :: rest =>
    let cs := if isSlash special c then rest else cs
    let cs := if special then cs.map fun c => if c == '\\' then '/' else c else cs
    (addSegments [] ((cs.splitOn '/').map (Percent.encode keptInPath))).reverse

/-- The path, the query and the fragment at the front of which a path is to be read. -/
def readRest (u : Url) (special : Bool) (path : List Char → Path) (cs : List Char) : Url :=
  let front := cs.takeWhile (· != '#')
  let fragment := cs.drop front.length
  let route := front.takeWhile (· != '?')
  let query := front.drop route.length
  { u with
    path := path route
    query :=
      if query.isEmpty then none else some (Percent.encode (keptInQuery special) query.tail)
    fragment :=
      if fragment.isEmpty then none else some (Percent.encode keptInFragment fragment.tail) }

/-- Whether a name is a drive letter. -/
def isDrive : List Char → Bool
  | [d, m] => d.isAlpha && (m == ':' || m == '|')
  | _ => false

/-- The host that a file's URL names: a drive letter is none, and neither is this machine. -/
def readFileHost (name : List Char) : Except Fault Host :=
  if name.isEmpty || isDrive name then .ok (.domain [])
  else (Host.parse name).map fun h => if h = .domain "localhost".toList then .domain [] else h

/-- The rest of a file's URL. -/
def readFile (cs : List Char) : Except Fault Url := do
  let url (host : Host) (path : List Char) : Url :=
    readRest { scheme := "file".toList, authority := some { host := host } } true
      (fun cs => .segments (readPath true cs)) path
  match cs with
  | a :: b :: rest =>
    if isSlash true a && isSlash true b then
      let name := rest.takeWhile (!isEnd true ·)
      let host ← readFileHost name
      return url host (if isDrive name then rest else rest.drop name.length)
    else return url (.domain []) cs
  | _ => return url (.domain []) cs

/-- The URL that a text is. -/
def parse (cs : List Char) : Except Fault Url := do
  match scheme? (clean cs) with
  | none => throw .relative
  | some (scheme, cs) =>
    if isFile scheme then readFile cs
    else if isSpecial scheme then
      let (a, rest) ← readAuthority scheme (cs.dropWhile (isSlash true))
      return readRest { scheme := scheme, authority := some a } true
        (fun cs => .segments (readPath true cs)) rest
    else
      match cs with
      | '/' :: '/' :: cs =>
        let (a, rest) ← readAuthority scheme cs
        return readRest { scheme := scheme, authority := some a } false
          (fun cs => .segments (readPath false cs)) rest
      | '/' :: _ =>
        return readRest { scheme := scheme } false (fun cs => .segments (readPath false cs)) cs
      | _ =>
        return readRest { scheme := scheme } false
          (fun cs => .bare (Percent.encode isVisible cs)) cs

/-! ### Relative paths and queries -/

/-- The URL that a path of plain names leads to from `base`: it takes the place of the last
segment. -/
def resolve (base : Url) (names : List String) : Except Fault Url :=
  match base.path with
  | .bare _ => .error .relativeToOpaque
  | .segments before => .ok { base with
      path := .segments (before.dropLast ++ names.map (Percent.encode keptInPath ·.toList))
      query := none
      fragment := none }

/-- The URL with the pairs as its query. -/
def withQuery (u : Url) (pairs : List (String × String)) : Url :=
  { u with query := some (Form.render pairs) }

/-- The pairs of the query. -/
def queryPairs (u : Url) : List (String × String) :=
  Form.parse (Percent.bytes (u.query.getD []))

/-! ### Writing -/

/-- The port, be it written or not. -/
def effectivePort? (u : Url) : Option Nat :=
  (u.authority.bind (·.port)).or (defaultPort? u.scheme)

def Path.render : Path → List Char
  | bare text => text
  | segments names => names.flatMap fun n => '/' :: n

/-- What a request names of the URL: its path and query. -/
def target (u : Url) : List Char :=
  (match u.path.render with
    | [] => ['/']
    | cs => cs) ++
    match u.query with
    | some q => '?' :: q
    | none => []

def Authority.render (a : Authority) : List Char :=
  let user := match a.user, a.password with
    | [], none => []
    | user, none => user ++ ['@']
    | user, some p => user ++ ':' :: p ++ ['@']
  user ++ a.host.render ++
    match a.port with
    | some p => ':' :: Nat.toDigits 10 p
    | none => []

/-- The URL as text. -/
def render (u : Url) : List Char :=
  u.scheme ++ ':' ::
    (match u.authority with
      | some a => '/' :: '/' :: a.render
      | none => []) ++
    u.path.render ++
    (match u.query with
      | some q => '?' :: q
      | none => []) ++
    match u.fragment with
    | some f => '#' :: f
    | none => []

end Url
end NetworkPolicy
