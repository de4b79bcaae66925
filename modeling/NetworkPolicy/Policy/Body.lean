import NetworkPolicy.Policy.Form
import NetworkPolicy.Policy.Validation

/-! Request and response bodies of the two API versions. -/

namespace NetworkPolicy

open Json (Reader)
open Json.Reader (field)

/-- Versions of the API. -/
inductive Version where
  /-- One port per policy. -/
  | v0
  /-- A port range per policy. -/
  | v1
  deriving DecidableEq, Repr

namespace Version

/-- The version's name in a path. -/
def name : Version → String
  | v0 => "v0"
  | v1 => "v1"

/-- The version of a path segment. -/
def ofName? (s : String) : Option Version := [v0, v1].find? (·.name == s)

end Version

/-- A body that is no batch of policies. -/
structure DecodeError where
  cause : Json.ReadError
  deriving DecidableEq, Repr

/-- The error in words. -/
def DecodeError.message (e : DecodeError) : String := "unmarshal json: " ++ e.cause.message

namespace Body

/-- A missing id is empty. -/
def idField {α : Type} (set : String → α → α) : Json.Reader.Field α :=
  field "id" Json.Reader.text set false

/-- A tag may be sent, and is dropped. -/
def tagField {α : Type} : Json.Reader.Field α :=
  field "tag" (Json.Reader.optional Json.Reader.text) (fun _ a => a) false

/-- The members of a source. -/
def sourceFields : Version → List (Json.Reader.Field Source)
  | .v0 => [idField fun s r => { r with id := s }]
  | .v1 => [idField fun s r => { r with id := s }, tagField]

/-- The members of a destination. -/
def destinationFields : Version → List (Json.Reader.Field Destination)
  | .v0 =>
    [idField fun s r => { r with id := s },
     field "protocol" Json.Reader.text (fun s r => { r with protocol := s }) false,
     field "port" Json.Reader.port (fun p r => { r with ports := .single p }) false]
  | .v1 =>
    [idField fun s r => { r with id := s },
     tagField,
     field "protocol" Json.Reader.text (fun s r => { r with protocol := s }) false,
     field "ports" (Ports.reader "WirePorts" false) fun p r => { r with ports := p }]

/-- Reads one submitted policy. -/
def policyReader (v : Version) : Reader Policy :=
  Json.Reader.record "WirePolicy"
    [field "source" (Json.Reader.record "WireSource" (sourceFields v) Policy.blank.source)
      fun s r => { r with source := s },
     field "destination"
      (Json.Reader.record "WireDestination" (destinationFields v) Policy.blank.destination)
      fun d r => { r with destination := d }]
    Policy.blank

/-- Reads a submitted batch. -/
def reader (v : Version) : Reader (List Policy) :=
  Json.Reader.record "PoliciesRequest"
    [field "policies" (Json.Reader.list (policyReader v)) (fun ps _ => ps) false] []

/-- The batch of a request body. -/
def decode (v : Version) (body : List Text.Symbol) : Except DecodeError (List Policy) :=
  (Json.Reader.ofText (reader v) body).mapError .mk

/-- The rules of a version for a batch. -/
def validate : Version → List Policy → Except Policy.Invalid Unit
  | .v0 => Policy.validateSingle
  | .v1 => Policy.validate

/-- The policies that a version can name. -/
def represented : Version → List Policy → List Policy
  | .v0, ps => ps.filter (·.destination.ports.isSingle)
  | .v1, ps => ps

/-- The JSON form of a policy in a body of the version. -/
def policyJson (v : Version) (p : Policy) : Json :=
  let d := p.destination
  let ports : String × Json := match v with
    | .v0 => ("port", .natural d.ports.first.toNat)
    | .v1 => ("ports", d.ports.toJson)
  .object
    [("source", .object [("id", .text p.source.id)]),
     ("destination", .object [("id", .text d.id), ("protocol", .text d.protocol), ports])]

/-- A listing without tags; policies that the version cannot name are left out and not counted. -/
def encode (v : Version) (ps : List Policy) : String :=
  let ps := represented v ps
  (Json.object [("total_policies", .natural ps.length),
    ("policies", .list (ps.map (policyJson v)))]).render

/-- The internal listing: all policies with their tags. -/
def encodeTagged (ps : List Policy) : String :=
  (Json.object [("policies", .list (ps.map Policy.toJson))]).render

end Body
end NetworkPolicy
