import NetworkPolicy.Server.Handlers

/-! Which request is handled how. -/

namespace NetworkPolicy

open Http (Request Response)

/-- The two sides that requests come from. -/
inductive Side where
  | external
  | internal
  deriving DecidableEq, Repr

/-- What a request asks for. The versions are texts that need not name one. -/
inductive Endpoint where
  | uptime
  | health
  | whoAmI (version : String)
  | list (version : String)
  | create (version : String)
  | delete (version : String)
  | cleanUp (version : String)
  | tags (version : String)
  | listInternally
  deriving DecidableEq, Repr

namespace Endpoint

/-- The name of the sample that tells how long requests of this kind take. -/
def sampleName : Endpoint → String
  | uptime => "UptimeRequestTime"
  | health => "HealthRequestTime"
  | whoAmI _ => "WhoAmIRequestTime"
  | list _ => "PoliciesIndexRequestTime"
  | create _ => "CreatePoliciesRequestTime"
  | delete _ => "DeletePoliciesRequestTime"
  | cleanUp _ => "CleanupRequestTime"
  | tags _ => "TagsIndexRequestTime"
  | listInternally => "InternalPoliciesIndexRequestTime"

end Endpoint

/-- A path that is served: by `GET`, by `POST`, or by both. -/
structure Route where
  get : Option Endpoint := none
  post : Option Endpoint := none
  deriving DecidableEq, Repr

namespace Route

/-- The methods that the path takes. A `HEAD` asks for what a `GET` would answer, less the body. -/
def allowed (r : Route) : String :=
  ",".intercalate ((if r.get.isSome then ["GET", "HEAD"] else []) ++
    if r.post.isSome then ["POST"] else [])

/-- What a method asks for on the path. -/
def endpoint? (r : Route) : String → Option Endpoint
  | "GET" | "HEAD" => r.get
  | "POST" => r.post
  | _ => none

end Route

/-- Where a path leads. -/
inductive Routed where
  | unknown
  /-- To a route; the version in the path may be no text. -/
  | route (r : Route) (readable : Bool := true)
  deriving DecidableEq, Repr

/-- The segments of a path: what stands after each slash. -/
def pathSegments : List UInt8 → List (List UInt8)
  | 0x2F :: rest => rest.splitOn 0x2F
  | _ => []

/-- The text of an encoded segment. -/
def segmentText? (bs : List UInt8) : Option String :=
  (Text.strict? (Text.ofByteList (Percent.decode bs))).map String.ofList

/-- The external routes under a version, by the segments after it. -/
def versionedRoute? (version : String) : List (List UInt8) → Option Route
  | [] => none
  | segments =>
    let is (names : List String) : Bool := segments == names.map fun n => Percent.bytes n.toList
    if is ["external", "whoami"] then some { get := some (.whoAmI version) }
    else if is ["external", "policies"] then
      some { get := some (.list version), post := some (.create version) }
    else if is ["external", "policies", "delete"] then some { post := some (.delete version) }
    else if is ["external", "policies", "cleanup"] then some { post := some (.cleanUp version) }
    else if is ["external", "tags"] then some { get := some (.tags version) }
    else none

/-- Where a path leads on a side. -/
def route (side : Side) (path : List UInt8) : Routed :=
  let segments := pathSegments path
  let is (names : List String) : Bool := segments == names.map fun n => Percent.bytes n.toList
  if is [""] then .route { get := some .uptime }
  else if is ["health"] then .route { get := some .health }
  else
    match side with
    | .internal =>
      if is ["networking", "v1", "internal", "policies"] then
        .route { get := some .listInternally }
      else .unknown
    | .external =>
      if is ["networking"] then .route { get := some .uptime }
      else
        match segments with
        | first :: version :: rest =>
          if first == Percent.bytes "networking".toList then
            let text := segmentText? version
            match versionedRoute? (text.getD "") rest with
            | some r => .route r text.isSome
            | none => .unknown
          else .unknown
        | _ => .unknown

namespace Service

variable {σ κ : Type} (s : Service σ κ)

/-- Handles a request for an endpoint. -/
def handle (e : Endpoint) (r : Request) : Pipeline σ κ Response :=
  let header := r.header? "authorization"
  match e with
  | .uptime => uptime
  | .health => s.health
  | .whoAmI v => s.whoAmI v header
  | .list v => s.listPolicies v header r.query
  | .create v => s.createPolicies v header r.body
  | .delete v => s.deletePolicies v header r.body
  | .cleanUp v => s.cleanUp v header
  | .tags v => s.listTags v header
  | .listInternally => s.listInternally r.query

/-- Samples how long a request took, and whether it failed. -/
def sampleRequest (e : Endpoint) (nanos : Nat) (response : Response) : Effect σ κ Unit := do
  s.sample (.duration e.sampleName nanos)
  if Http.isClientError response.status || Http.isServerError response.status then
    s.sample (.counter "http_error")

/-- Answers a request for an endpoint. -/
def answer (e : Endpoint) (r : Request) : Effect σ κ Response := do
  let begun := (← get).now
  let response ← match ← (s.handle e r).outcome with
    | .ok response => pure response
    | .error f => pure f.response
  s.sampleRequest e ((← get).now - begun) response
  return if r.method = "HEAD" then { response with body := "" } else response

/-- Answers a request. What leads nowhere is neither sampled nor logged. -/
def respond (side : Side) (r : Request) : Effect σ κ Response :=
  match route side r.path with
  | .unknown => return { status := 404 }
  | .route route readable =>
    match route.endpoint? r.method with
    | none => return { status := 405, allow := some route.allowed }
    | some e =>
      if readable then s.answer e r
      else return {
        status := 400
        contentType := some "text/plain; charset=utf-8"
        body := if r.method = "HEAD" then "" else "Invalid URL: Invalid UTF-8 in `version`" }

end Service
end NetworkPolicy
