import NetworkPolicy.Access.Guard
import NetworkPolicy.Policy.Body
import NetworkPolicy.Server.Failure
import NetworkPolicy.Url.Form

/-! How each kind of request is handled. -/

namespace NetworkPolicy

open Http (Request Response)

/-- A response of JSON text. -/
def Http.Response.json (body : String) : Response :=
  { status := 200, contentType := some "application/json", body := body }

/-- The response to a change that was made: an object without members. -/
def Http.Response.done : Response := .json (Json.object []).render

/-- The two ways to change the policies. -/
inductive Change where
  | create
  | delete
  deriving DecidableEq, Repr

namespace Change

def session : Change → String
  | create => "create-policies"
  | delete => "delete-policies"

def context : Change → String
  | create => "policies-create"
  | delete => "delete-policies"

/-- What is said of a body that is too long. -/
def unread : Change → String
  | create => "failed reading request body"
  | delete => "invalid request body"

/-- The event of a caller who may not write the policies. -/
def deniedEvent : Change → String
  | create => "failed-authorizing"
  | delete => "failed-authorizing-access"

end Change

/-- The identifiers that a query asks for: the first `id`, parted at commas. -/
def requestedIds (query : Option (List UInt8)) : Option (List String) := do
  let (_, value) ← (Form.parse (← query)).find? (·.1 == "id")
  return (value.toList.splitOn ',').map String.ofList

/-- A time span as `1h2m3s`; units of zero in front are left out. -/
def uptimeText (seconds : Nat) : String :=
  let (h, m, s) := (seconds / 3600, seconds % 3600 / 60, seconds % 60)
  if 0 < h then s!"{h}h{m}m{s}s" else if 0 < m then s!"{m}m{s}s" else s!"{s}s"

namespace Service

variable {σ κ : Type} (s : Service σ κ)

/-- The version of a path. -/
def selectVersion (name : String) : Pipeline σ κ Version :=
  match Version.ofName? name with
  | some v => return v
  | none => throw ⟨406, "check-version", "api version not supported"⟩

/-- The caller of a request, if the route lets them in. -/
def identify (allowed : AllowedScopes) (header : Option String) : Pipeline σ κ Caller :=
  s.require ["authenticator"] "failed-authenticating" AuthError.message Failure.ofAuth fun w =>
    let (r, k) := authenticate s.collaborators allowed header w.collaborators
    (r, { w with collaborators := k })

/-- The body, if it is not too long. -/
def readBody (c : Change) (body : ByteArray) : Pipeline σ κ ByteArray := do
  if s.limits.maxBodyBytes < body.size then
    s.refuse [c.session] "failed-reading-request-body" "length limit exceeded"
      ⟨400, c.context, c.unread⟩
  return body

/-- The batch of a body. -/
def decodeBatch (c : Change) (v : Version) (body : ByteArray) : Pipeline σ κ (List Policy) :=
  s.require [c.session] "failed-mapping-policies" DecodeError.message
    (fun e => ⟨400, c.context, s!"could not map request to store policies: {e.message}"⟩)
    (pure (Body.decode v (Text.ofBytes body)))

/-- Requires that the rules of the version hold. -/
def checkBatch (c : Change) (v : Version) (ps : List Policy) : Pipeline σ κ Unit :=
  s.require [c.session] "failed-validating-policies" Policy.Invalid.message
    (fun e => ⟨400, c.context, e.message⟩) (pure (Body.validate v ps))

/-- Requires that the caller may write the policies. -/
def checkAccess (c : Change) (caller : Caller) (ps : List Policy) : Pipeline σ κ Unit := do
  let allowed ← s.require [c.session] "failed-checking-access" ServiceError.message
    (fun _ => ⟨500, c.context, "check access failed"⟩)
    (inquire (mayWrite s.collaborators caller ps))
  if !allowed then
    let description := "one or more applications cannot be found or accessed"
    s.refuse [c.session] c.deniedEvent description ⟨403, c.context, description⟩

/-- Requires that there is room for the policies. -/
def checkQuota (ps : List Policy) : Pipeline σ κ Unit := do
  let c := Change.create
  let stored ← s.require [c.session] "failed-checking-quota" StoreError.message
    (fun _ => ⟨500, c.context, "check quota failed"⟩) s.all
  if !withinQuota s.limits.maxPolicies stored.length ps.length then
    let description := "policy quota exceeded"
    s.refuse [c.session] "quota-exceeded" description ⟨403, c.context, description⟩

/-- The caller and the batch of a request to change policies, once all checks but the quota have
passed. -/
def acceptBatch (c : Change) (version : String) (header : Option String) (body : ByteArray) :
    Pipeline σ κ (Caller × List Policy) := do
  let v ← selectVersion version
  let caller ← s.identify (.write s.limits.scopeChecking) header
  let body ← s.readBody c body
  let ps ← s.decodeBatch c v body
  s.checkBatch c v ps
  s.checkAccess c caller ps
  return (caller, ps)

/-- Tells who changed which policies. -/
def logChange (c : Change) (event : String) (caller : Caller) (ps : List Policy) :
    Pipeline σ κ Unit :=
  s.log [c.session] .info event
    (.object [("policies", policiesJson ps), ("user_name", .text caller.userName)])

/-- Writes a batch that has passed all checks. -/
def storeBatch (ps : List Policy) : Pipeline σ κ Unit :=
  s.require [Change.create.session] "failed-creating-in-database" StoreError.message
    (fun _ => ⟨500, Change.create.context, "database create failed"⟩) (s.create ps)

/-- Creates the policies of an accepted batch if there is room for them. -/
def createAccepted (caller : Caller) (ps : List Policy) : Pipeline σ κ Response := do
  s.checkQuota ps
  s.storeBatch ps
  s.logChange .create "created-policies" caller ps
  return .done

def createPolicies (version : String) (header : Option String) (body : ByteArray) :
    Pipeline σ κ Response := do
  let (caller, ps) ← s.acceptBatch .create version header body
  s.createAccepted caller ps

def deletePolicies (version : String) (header : Option String) (body : ByteArray) :
    Pipeline σ κ Response := do
  let (caller, ps) ← s.acceptBatch .delete version header body
  s.require [Change.delete.session] "failed-deleting-in-database" StoreError.message
    (fun _ => ⟨500, Change.delete.context, "database delete failed"⟩) (s.delete ps)
  s.logChange .delete "deleted-policies" caller ps
  return .done

/-- The policies that a query asks for. -/
def queried (query : Option (List UInt8)) : Effect σ κ (Except StoreError (List Policy)) :=
  match requestedIds query with
  | some ids => s.byGuids ids ids
  | none => s.all

/-- Lists the policies that the caller sees. -/
def listPolicies (version : String) (header : Option String) (query : Option (List UInt8)) :
    Pipeline σ κ Response := do
  let v ← selectVersion version
  let caller ← s.identify (.write s.limits.scopeChecking) header
  let ps ← s.require ["index-policies"] "failed-reading-database" StoreError.message
    (fun _ => ⟨500, "policies-index", "database read failed"⟩) (s.queried query)
  let seen ← s.require ["index-policies"] "failed-filtering-policies" ServiceError.message
    (fun _ => ⟨500, "policies-index", "filter policies failed"⟩)
    (inquire (visible s.collaborators s.limits.batchSize caller ps))
  return .json (Body.encode v seen)

/-- Lists policies with their tags; nobody is asked who they are. -/
def listInternally (query : Option (List UInt8)) : Pipeline σ κ Response := do
  let ps ← s.require ["index-policies-internal"] "failed-reading-database" StoreError.message
    (fun _ => ⟨500, "policies-index-internal", "database read failed"⟩) (s.queried query)
  return .json (Body.encodeTagged ps)

/-- Removes stale policies and lists them. -/
def cleanUp (version : String) (header : Option String) : Pipeline σ κ Response := do
  let _ ← selectVersion version
  let _ ← s.identify .admin header
  let removed ← s.require ["cleanup-policies"] "failed-deleting-stale-policies"
    CleanError.message (fun _ => ⟨500, "policies-cleanup", "policies cleanup failed"⟩)
    s.clean.outcome
  return .json (Body.encode .v1 removed)

/-- Lists the assigned tags. -/
def listTags (version : String) (header : Option String) : Pipeline σ κ Response := do
  let _ ← selectVersion version
  let _ ← s.identify .admin header
  let tags ← s.require ["tags-index"] "failed-reading-database" StoreError.message
    (fun _ => ⟨500, "tags-index", "database read failed"⟩) s.tags
  return .json (Json.object [("tags", .list (tags.map fun t =>
    .object [("id", .text t.id), ("tag", .text t.tag)]))]).render

/-- Tells callers their names. -/
def whoAmI (version : String) (header : Option String) : Pipeline σ κ Response := do
  let _ ← selectVersion version
  let caller ← s.identify .admin header
  return .json (Json.object [("user_name", .text caller.userName)]).render

/-- Tells for how long the server has been up. -/
def uptime : Pipeline σ κ Response := do
  let w ← get
  return {
    status := 200
    contentType := some "text/plain; charset=utf-8"
    body := "Network policy server, up for " ++ uptimeText (w.now / 1000000000) }

/-- Tells whether the store can be reached. -/
def health : Pipeline σ κ Response := do
  s.require ["health"] "failed-checking-database" StoreError.message
    (fun _ => ⟨500, "health", "check database failed"⟩) s.check
  return { status := 200 }

end Service
end NetworkPolicy
