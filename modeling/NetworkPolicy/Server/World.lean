import NetworkPolicy.Access.Collaborators
import NetworkPolicy.Config.Basic
import NetworkPolicy.Log.Logger
import NetworkPolicy.Store.Basic

/-! The world that the server works in, and what each of its parts does to it. -/

namespace NetworkPolicy

/-- Where samples go. -/
inductive SampleSink where
  | memory
  /-- To the log. -/
  | log
  deriving DecidableEq, Repr

/-- The parts of a server, which do not change. -/
structure Service (σ κ : Type) where
  store : PolicyStore σ
  /-- Whether each store call is sampled. -/
  watched : Bool := false
  collaborators : Collaborators κ
  limits : Limits
  logger : Logger
  samples : SampleSink := .memory

/-- What changes while a server runs. Times are in nanoseconds since it was started. -/
structure World (σ κ : Type) where
  store : σ
  /-- How long a call waits before it reaches the store. -/
  latency : Nat := 0
  collaborators : κ
  log : LogSink
  samples : List Sample := []
  now : Nat := 0
  /-- When the clock started, in milliseconds. -/
  epoch : Nat := 0

/-- A step of the server in its world. -/
abbrev Effect (σ κ α : Type) := StateM (World σ κ) α

namespace Service

variable {σ κ α : Type} (s : Service σ κ)

def millis (w : World σ κ) : Nat := w.epoch + w.now / nanosPerMilli

/-- Logs an event within sessions. -/
def log (sessions : List String) (level : LogLevel) (event : String) (data : Json) :
    Effect σ κ Unit := fun w =>
  let logger := sessions.foldl Logger.session s.logger
  ((), { w with log := logger.emit level event data (millis w) w.log })

/-- Logs a failure within sessions. -/
def logFailure (sessions : List String) (event cause : String) (data : Json) :
    Effect σ κ Unit :=
  s.log sessions .error event (LogEvent.failureData cause data)

/-- Takes a sample. -/
def sample (x : Sample) : Effect σ κ Unit := fun w =>
  match s.samples with
  | .memory => ((), { w with samples := w.samples ++ [x] })
  | .log => ((), { w with log := s.logger.sample x (millis w) w.log })

/-- How long a store call may take, in nanoseconds. -/
def deadline : Nat := s.limits.storeDeadlineMillis * nanosPerMilli

/-- Makes a store call, and samples it if the store is watched. -/
def call (c : StoreCall) (f : σ → Except StoreError α × σ) :
    Effect σ κ (Except StoreError α) := do
  let r ← fun w =>
    let (r, store) := f w.store
    (r, { w with store := store, now := w.now + w.latency })
  if s.watched then
    (Observed.samplesOf c 0 r).forM s.sample
  return r

/-- Reads from the store; a read beyond the deadline is given up. -/
def read (c : StoreCall) (f : σ → Except StoreError α × σ) :
    Effect σ κ (Except StoreError α) := do
  let w ← get
  if s.deadline < w.latency then
    set { w with now := w.now + s.deadline }
    return .error (.timeout s.limits.storeDeadlineMillis)
  else s.call c f

/-- The limit of a write that begins now and reaches the store after the latency. -/
def timeLimit (w : World σ κ) : TimeLimit :=
  .at (.after w.now s.deadline) (w.now + w.latency)

def all : Effect σ κ (Except StoreError (List Policy)) := s.read .all s.store.all

def create (ps : List Policy) : Effect σ κ (Except StoreError Unit) := do
  let w ← get
  s.call .create (s.store.create ps (some (s.timeLimit w)))

def delete (ps : List Policy) : Effect σ κ (Except StoreError Unit) := do
  let w ← get
  s.call .delete (s.store.delete ps (some (s.timeLimit w)))

def byGuids (sources destinations : List String) : Effect σ κ (Except StoreError (List Policy)) :=
  s.read .byGuids (s.store.byGuids sources destinations)

def tags : Effect σ κ (Except StoreError (List Tag)) := s.read .tags s.store.tags

def check : Effect σ κ (Except StoreError Unit) := s.read .check s.store.check

/-- Asks the services. -/
def inquire (q : Inquiry κ α) : Effect σ κ (Except ServiceError α) := fun w =>
  let (r, k) := q.outcome w.collaborators
  (r, { w with collaborators := k })

/-- Asks a service and waits for so many milliseconds at most. -/
def askWithin (timeout : Nat) (f : κ → Reply α × κ) : Effect σ κ (Except ServiceError α) := fun w =>
  match f w.collaborators with
  | (.answer r, k) => (r, { w with collaborators := k })
  | (.silence, k) =>
    (.error (.unavailable s!"timed out after {timeout} ms"),
      { w with collaborators := k, now := w.now + timeout * nanosPerMilli })

end Service
end NetworkPolicy
