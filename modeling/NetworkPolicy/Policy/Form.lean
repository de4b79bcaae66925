import NetworkPolicy.Json.Value
import NetworkPolicy.Policy.Basic

/-! The JSON form of a policy with its tags; empty tags are left out. -/

namespace NetworkPolicy

open Json (Reader)
open Json.Reader (field)

/-- A member that is left out when empty. -/
def textUnlessEmpty (name value : String) : List (String × Json) :=
  if value.isEmpty then [] else [(name, .text value)]

namespace Ports

def toJson (p : Ports) : Json :=
  .object [("start", .natural p.first.toNat), ("end", .natural p.last.toNat)]

/-- Reads a range; without `required`, a missing end is 0. -/
def reader (name : String) (required : Bool) : Reader Ports :=
  Json.Reader.record name
    [field "start" Json.Reader.port (fun p r => { r with first := p }) required,
     field "end" Json.Reader.port (fun p r => { r with last := p }) required]
    ⟨0, 0⟩

end Ports

namespace Policy

def toJson (p : Policy) : Json :=
  .object
    [("source", .object (("id", .text p.source.id) :: textUnlessEmpty "tag" p.source.tag)),
     ("destination", .object
       (("id", .text p.destination.id) :: textUnlessEmpty "tag" p.destination.tag ++
        [("protocol", .text p.destination.protocol), ("ports", p.destination.ports.toJson)]))]

/-- The policy's JSON text. -/
def render (p : Policy) : String := p.toJson.render

/-- A policy that every field is still to be set in. -/
def blank : Policy := ⟨⟨"", ""⟩, ⟨"", "", "", ⟨0, 0⟩⟩⟩

/-- Reads a source with its tag. -/
def sourceReader : Reader Source :=
  Json.Reader.record "Source"
    [field "id" Json.Reader.text fun s r => { r with id := s },
     field "tag" Json.Reader.text (fun s r => { r with tag := s }) false]
    blank.source

/-- Reads a destination with its tag. -/
def destinationReader : Reader Destination :=
  Json.Reader.record "Destination"
    [field "id" Json.Reader.text fun s r => { r with id := s },
     field "tag" Json.Reader.text (fun s r => { r with tag := s }) false,
     field "protocol" Json.Reader.text fun s r => { r with protocol := s },
     field "ports" (Ports.reader "Ports" true) fun p r => { r with ports := p }]
    blank.destination

/-- Reads a policy with its tags. -/
def reader : Reader Policy :=
  Json.Reader.record "Policy"
    [field "source" sourceReader fun s r => { r with source := s },
     field "destination" destinationReader fun d r => { r with destination := d }]
    blank

/-- The policy of a JSON text. -/
def parse (s : String) : Except Json.ReadError Policy :=
  Json.Reader.ofText reader (Text.ofChars s.toList)

end Policy
end NetworkPolicy
