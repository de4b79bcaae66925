import NetworkPolicy.Config.Form
import NetworkPolicy.Config.Validation
import NetworkPolicy.Files
import NetworkPolicy.Text.Symbol

/-! Settings from a text or a file: they are read, then checked. -/

namespace NetworkPolicy.Config

/-- Why settings could not be had. -/
inductive LoadError where
  | io (e : FileError)
  | unread (e : Toml.ReadError)
  | invalid (i : Invalid)
  deriving DecidableEq, Repr

/-- The mismatch in words, if the document is well-formed. -/
def unreadCause : Toml.ReadError → String
  | .mismatch m => m.message Toml.floatText
  | .fault => ""

/-- The error in words. -/
def LoadError.message : LoadError → String
  | io e => s!"config io error: {e.message}"
  | unread e => s!"config parse error: {unreadCause e}"
  | .invalid i => s!"invalid config: {i.message}"

/-- The settings of a text, not checked. -/
def read (cs : List Char) : Except LoadError Config :=
  (Toml.Reader.ofText reader cs).mapError .unread

/-- The settings of a text. -/
def ofText (cs : List Char) : Except LoadError Config := do
  let c ← read cs
  c.validate.mapError .invalid
  return c

/-- The largest file of settings, in bytes. -/
def maxFileBytes : Nat := 1024 * 1024

/-- The settings that bytes give. -/
def ofBytes (bytes : List UInt8) : Except LoadError Config :=
  if maxFileBytes < bytes.length then .error (.invalid .tooLarge)
  else
    match Text.strict? (Text.ofByteList bytes) with
    | none => .error (.invalid .notText)
    | some cs => ofText cs

/-- The settings of a file. -/
def load (f : Files) (path : String) : Except LoadError Config :=
  match f.read path with
  | .error e => .error (.io e)
  | .ok bytes => ofBytes bytes

end NetworkPolicy.Config
