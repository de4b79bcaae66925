import NetworkPolicy.Policy.Basic

/-! Which policies may be submitted. -/

namespace NetworkPolicy.Policy

/-- Why a batch may not be submitted. -/
inductive Invalid where
  | missingPolicies
  | missingSourceId
  | missingDestinationId
  | protocol
  | startPort (p : UInt16)
  | endPort (p : UInt16)
  | range (ports : Ports)
  | port (p : UInt16)
  deriving DecidableEq, Repr

/-- The error in words. -/
def Invalid.message : Invalid → String
  | missingPolicies => "missing policies"
  | missingSourceId => "missing source id"
  | missingDestinationId => "missing destination id"
  | protocol => "invalid destination protocol, specify either udp or tcp"
  | startPort p => s!"invalid start port {p.toNat}, must be in range 1-65535"
  | endPort p => s!"invalid end port {p.toNat}, must be in range 1-65535"
  | range r =>
    s!"invalid port range {r.first.toNat}-{r.last.toNat}, start must be less than or equal to end"
  | port p => s!"invalid port {p.toNat}, must be in range 1-65535"

/-- Checks identifiers and protocol. -/
def checkEnds (p : Policy) : Except Invalid Unit :=
  if p.source.id.isEmpty then .error .missingSourceId
  else if p.destination.id.isEmpty then .error .missingDestinationId
  else if p.destination.protocol = "tcp" ∨ p.destination.protocol = "udp" then .ok ()
  else .error .protocol

/-- Checks a policy that may name a port range. -/
def check (p : Policy) : Except Invalid Unit := do
  p.checkEnds
  let r := p.destination.ports
  if r.first = 0 then .error (.startPort r.first)
  else if r.last = 0 then .error (.endPort r.last)
  else if r.last < r.first then .error (.range r)
  else .ok ()

/-- Checks a policy that must name one port. -/
def checkSingle (p : Policy) : Except Invalid Unit := do
  p.checkEnds
  let r := p.destination.ports
  if r.first = 0 ∨ r.isSingle = false then .error (.port r.first) else .ok ()

/-- Checks a batch: it is not empty, and every policy passes. -/
def checkAll (check : Policy → Except Invalid Unit) (ps : List Policy) : Except Invalid Unit :=
  if ps.isEmpty then .error .missingPolicies else ps.forM check

/-- Checks a batch of port ranges. -/
def validate (ps : List Policy) : Except Invalid Unit := checkAll check ps

/-- Checks a batch of single ports. -/
def validateSingle (ps : List Policy) : Except Invalid Unit := checkAll checkSingle ps

end NetworkPolicy.Policy
