import NetworkPolicy.Policy.Form
import NetworkPolicy.Server.Task

/-! Removal of policies whose applications no longer exist. -/

namespace NetworkPolicy

/-- Why a cleaning failed. -/
inductive CleanError where
  | store (e : StoreError)
  | service (e : ServiceError)
  deriving DecidableEq, Repr

/-- The error in words. -/
def CleanError.message : CleanError → String
  | store e => e.message
  | service e => e.message

/-- Whether both applications of a policy are among the live ones. -/
def Policy.isLive (live : List String) (p : Policy) : Bool :=
  live.contains p.source.id && live.contains p.destination.id

/-- The policies with an application that does not exist. If no application at all is said to exist,
the directory is not believed. -/
def stale (live : List String) (ps : List Policy) : Except ServiceError (List Policy) :=
  if live.isEmpty && !ps.isEmpty then .error (.invalidResponse "directory returned no applications")
  else .ok (ps.filter (!·.isLive live))

/-- What a batch of policies is in the data of an event. -/
def policiesJson (ps : List Policy) : Json := .list (ps.map Policy.toJson)

namespace Service

variable {σ κ : Type} (s : Service σ κ)

/-- The live applications of all batches, after those found so far. -/
def liveAmong (token : String) :
    List (List String) → List String → Task σ κ CleanError (List String)
  | [], found => pure found
  | apps :: rest, found => do
    let live ← .attempt
      (askWithin s.limits.cleanerMillis (s.collaborators.liveApps token apps)) .service
    liveAmong token rest (found ++ live)

/-- Tells what has been deleted. -/
def logRemoved (gone : List Policy) : Effect σ κ Unit :=
  s.log ["policy-cleaner"] .info "deleted-stale-policies"
    (.object [("policies", policiesJson gone), ("total_policies", .natural gone.length)])

/-- Deletes what was found stale, and tells so. -/
def remove (gone : List Policy) : Effect σ κ (Except StoreError Unit) := do
  match ← s.delete gone with
  | .ok _ =>
    s.logRemoved gone
    return .ok ()
  | .error e => return .error e

/-- The rest of a cleaning, once the policies were read and the directory has answered. -/
def sweep (ps : List Policy) (live : List String) : Task σ κ CleanError (List Policy) := do
  let gone ← .attempt (pure (stale live ps)) .service
  if gone.isEmpty then return []
  .attempt (s.remove gone) .store
  return gone

/-- The rest of a cleaning, once there is a token. -/
def cleanWith (token : String) : Task σ κ CleanError (List Policy) := do
  let ps ← .attempt s.all .store
  let live ← s.liveAmong token (batches s.limits.batchSize (namedApps ps)) []
  s.sweep ps live

/-- Removes the stale policies, and gives what it removed. -/
def clean : Task σ κ CleanError (List Policy) := do
  let token ← .attempt (askWithin s.limits.cleanerMillis s.collaborators.serviceToken) .service
  s.cleanWith token

end Service
end NetworkPolicy
