import NetworkPolicy.Access.Caller
import NetworkPolicy.Http.Status

/-! The services that the server asks: one for tokens, and a directory of applications. -/

namespace NetworkPolicy

/-- Why another service gave no useful answer. -/
inductive ServiceError where
  | unavailable (cause : String)
  | rejected (cause : String)
  | invalidResponse (cause : String)
  deriving DecidableEq, Repr

namespace ServiceError

/-- The error in words. -/
def message : ServiceError → String
  | unavailable c => s!"collaborator unavailable: {c}"
  | rejected c => s!"collaborator rejected request: {c}"
  | invalidResponse c => s!"collaborator returned invalid response: {c}"

/-- The error that an unsuccessful status stands for. -/
def ofStatus (service : String) (code : Nat) : ServiceError :=
  let cause := s!"{service} returned status " ++ Http.statusText code
  if Http.isClientError code then rejected cause else unavailable cause

end ServiceError

/-- What comes back from a service. -/
inductive Reply (α : Type) where
  | answer (r : Except ServiceError α)
  /-- Nothing comes back. -/
  | silence

/-- The answer of a service that is waited for without limit; silence is a failure. -/
def Reply.awaited {α : Type} : Reply α → Except ServiceError α
  | answer r => r
  | silence => .error (.unavailable "no answer")

/-- The space of each application: every application occurs once. -/
abbrev Spaces := List (String × String)

namespace Spaces

/-- Puts an application in a space, in the place of the one it was in. -/
def put (s : Spaces) (app space : String) : Spaces :=
  if s.any (·.1 == app) then s.map fun e => if e.1 == app then (app, space) else e
  else s ++ [(app, space)]

/-- The space of an application. -/
def space? (s : Spaces) (app : String) : Option String := (s.find? (·.1 == app)).map (·.2)

/-- Adds entries; the last one of an application counts. -/
def putAll (s : Spaces) (entries : List (String × String)) : Spaces :=
  entries.foldl (fun s e => s.put e.1 e.2) s

end Spaces

/-- The services with states in `κ`. -/
structure Collaborators (κ : Type) where
  /-- Whose token this is. -/
  checkToken : String → κ → Reply Caller × κ
  /-- A token of the server's own. -/
  serviceToken : κ → Reply String × κ
  /-- The spaces of those applications that exist. -/
  appSpaces : String → List String → κ → Reply Spaces × κ
  /-- The spaces in which a user is a developer. -/
  userSpaces : String → String → κ → Reply (List String) × κ
  /-- Those applications that exist. -/
  liveApps : String → List String → κ → Reply (List String) × κ

/-- A computation that asks services, and ends with the first failure. -/
abbrev Inquiry (κ α : Type) := ExceptT ServiceError (StateM κ) α

namespace Inquiry

variable {κ α β : Type}

/-- Asks a service and waits for its answer. -/
def ask (call : κ → Reply α × κ) : Inquiry κ α := fun k =>
  let (r, k) := call k
  (r.awaited, k)

/-- The outcome and the state of the services after it. -/
def outcome (q : Inquiry κ α) (k : κ) : Except ServiceError α × κ := q k

@[simp] theorem outcome_throw (e : ServiceError) (k : κ) :
    outcome (throw e : Inquiry κ α) k = (.error e, k) := rfl

@[simp] theorem outcome_ask (call : κ → Reply α × κ) (k : κ) :
    outcome (ask call) k = ((call k).1.awaited, (call k).2) := rfl

theorem outcome_bind (q : Inquiry κ α) (f : α → Inquiry κ β) (k : κ) :
    (q >>= f).outcome k = match q.outcome k with
      | (.ok a, k) => (f a).outcome k
      | (.error e, k) => (.error e, k) := by
  simp only [outcome, bind, ExceptT.bind, ExceptT.mk, StateT.bind, ExceptT.bindCont]
  cases q k with
  | mk r k => cases r <;> rfl

end Inquiry

/-- Consecutive parts of a list, each of `size` elements or, at the end, fewer. Zero counts as
one. -/
def batches {α : Type} (size : Nat) (xs : List α) : List (List α) :=
  if xs.isEmpty then []
  else xs.take (max 1 size) :: batches size (xs.drop (max 1 size))
  termination_by xs.length
  decreasing_by
    cases xs with
    | nil => simp at *
    | cons => simp only [List.length_drop, List.length_cons]; omega

end NetworkPolicy
