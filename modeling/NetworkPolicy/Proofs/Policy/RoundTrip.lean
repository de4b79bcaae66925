import NetworkPolicy.Policy.Body
import NetworkPolicy.Proofs.Json.Records

/-! Bodies written and read back: all of a batch but the tags comes back, less what the version
cannot name, and what was read from any body is written so that nothing more changes. -/
namespace NetworkPolicy

open Json (Document Reader)
open Json.Reader (record record_closed members_field members_other Keeps)

namespace Body

variable {v : Version} {p : Policy} {ps : List Policy} {f : Policy → Json}

/-! ### One policy -/

theorem text_read (s : String) : Json.Reader.text (Json.text s).document = .ok s := rfl

theorem tag_read (s : String) :
    Json.Reader.optional Json.Reader.text (Json.text s).document = .ok (some s) := rfl

theorem ports_read (r : Ports) (name : String) (required : Bool) :
    Ports.reader name required r.toJson.document = .ok r := by
  have hfirst := Json.Reader.port_natural r.first
  have hlast := Json.Reader.port_natural r.last
  refine record_closed ((members_field rfl (by decide) hfirst).trans
    ((members_field rfl (by decide) hlast).trans rfl)) ?_
  cases required <;> rfl

theorem source_read (v : Version) (s : String) :
    record "WireSource" (sourceFields v) Policy.blank.source
      (Json.object [("id", .text s)]).document = .ok ⟨s, ""⟩ := by
  cases v <;> exact record_closed ((members_field rfl (by decide) (text_read s)).trans rfl) rfl

/-- The JSON form of a destination in a body of the version. -/
def destinationJson (v : Version) (d : Destination) : Json :=
  .object [("id", .text d.id), ("protocol", .text d.protocol),
    match v with
    | .v0 => ("port", .natural d.ports.first.toNat)
    | .v1 => ("ports", d.ports.toJson)]

theorem destination_read {d : Destination} (h : v = .v0 → d.ports.isSingle) :
    record "WireDestination" (destinationFields v) Policy.blank.destination
      (destinationJson v d).document = .ok { d with tag := "" } := by
  have hid := text_read d.id
  have hprotocol := text_read d.protocol
  cases v with
  | v0 =>
    have hport := Json.Reader.port_natural d.ports.first
    have hsingle : Ports.single d.ports.first = d.ports := by
      have hends : d.ports.first = d.ports.last := by simpa [Ports.isSingle] using h rfl
      exact congrArg (Ports.mk d.ports.first) hends
    rw [← hsingle]
    exact record_closed ((members_field rfl (by decide) hid).trans
      ((members_field rfl (by decide) hprotocol).trans
        ((members_field rfl (by decide) hport).trans rfl))) rfl
  | v1 =>
    have hports := ports_read d.ports "WirePorts" false
    exact record_closed ((members_field rfl (by decide) hid).trans
      ((members_field rfl (by decide) hprotocol).trans
        ((members_field rfl (by decide) hports).trans rfl))) rfl

theorem policyReader_eq {v : Version} {s d : Json} {source : Source} {destination : Destination}
    (hs : record "WireSource" (sourceFields v) Policy.blank.source s.document = .ok source)
    (hd : record "WireDestination" (destinationFields v) Policy.blank.destination d.document =
      .ok destination) :
    policyReader v (Json.object [("source", s), ("destination", d)]).document =
      .ok ⟨source, destination⟩ :=
  record_closed ((members_field rfl (by decide) hs).trans
    ((members_field rfl (by decide) hd).trans rfl)) rfl

theorem policy_read (h : v = .v0 → p.destination.ports.isSingle) :
    policyReader v (policyJson v p).document = .ok p.withoutTags := by
  have hform : policyJson v p = .object
      [("source", .object [("id", .text p.source.id)]),
       ("destination", destinationJson v p.destination)] := by cases v <;> rfl
  rw [hform]
  exact policyReader_eq (source_read v p.source.id) (destination_read h)

-- tags are written when there are any, and are passed over
theorem tagged_read (p : Policy) : policyReader .v1 p.toJson.document = .ok p.withoutTags := by
  refine policyReader_eq ?_ ?_
  · have hid := text_read p.source.id
    have htag := tag_read p.source.tag
    unfold textUnlessEmpty
    split
    · exact source_read .v1 p.source.id
    · exact record_closed ((members_field rfl (by decide) hid).trans
        ((members_field rfl (by decide) htag).trans rfl)) rfl
  · have hid := text_read p.destination.id
    have htag := tag_read p.destination.tag
    have hprotocol := text_read p.destination.protocol
    have hports := ports_read p.destination.ports "WirePorts" false
    unfold textUnlessEmpty
    split
    · exact destination_read (v := .v1) (fun h => nomatch h)
    · exact record_closed ((members_field rfl (by decide) hid).trans
        ((members_field rfl (by decide) htag).trans
          ((members_field rfl (by decide) hprotocol).trans
            ((members_field rfl (by decide) hports).trans rfl)))) rfl

/-! ### Batches -/

theorem batch_read {g : Policy → Policy}
    (h : ∀ p ∈ ps, policyReader v (f p).document = .ok (g p)) :
    Json.Reader.list (policyReader v) (Json.list (ps.map f)).document = .ok (ps.map g) := by
  have helements : (Json.elementDocuments (ps.map f)).mapM (policyReader v) = .ok (ps.map g) := by
    rw [Json.elementDocuments_eq, List.map_map, List.mapM_map]
    exact mapM_eq_ok h
  rw [Json.document, Json.Reader.list, helements]
  rfl

theorem integral_ports (r : Ports) : r.toJson.Integral := ⟨trivial, trivial, trivial⟩

theorem integral_policyJson (v : Version) (p : Policy) : (policyJson v p).Integral := by
  cases v with
  | v0 => exact ⟨⟨trivial, trivial⟩, ⟨trivial, trivial, trivial, trivial⟩, trivial⟩
  | v1 => exact ⟨⟨trivial, trivial⟩, ⟨trivial, trivial, integral_ports _, trivial⟩, trivial⟩

theorem integral_toJson (p : Policy) : p.toJson.Integral := by
  unfold Policy.toJson textUnlessEmpty
  split
  all_goals
    split
    all_goals simp [Json.Integral, Json.IntegralMembers, integral_ports]

theorem integral_batch (h : ∀ p, (f p).Integral) : (Json.list (ps.map f)).Integral := by
  refine Json.integralElements_of_forall fun j hj => ?_
  obtain ⟨p, -, rfl⟩ := List.mem_map.mp hj
  exact h p

theorem decode_eq {body : List Text.Symbol} {r : Except Json.ReadError (List Policy)}
    (h : Reader.ofText (reader v) body = r) : decode v body = r.mapError .mk :=
  congrArg (Except.mapError DecodeError.mk) h

theorem represented_single : v = .v0 → ∀ p ∈ represented v ps, p.destination.ports.isSingle := by
  rintro rfl p hp
  exact (List.mem_filter.mp hp).2

/-- The value that a listing of these policies is written from. -/
def listing (v : Version) (ps : List Policy) : Json :=
  .object [("total_policies", .natural ps.length), ("policies", .list (ps.map (policyJson v)))]

theorem encode_eq (v : Version) (ps : List Policy) :
    encode v ps = (listing v (represented v ps)).render := rfl

theorem integral_listing (v : Version) (ps : List Policy) : (listing v ps).Integral :=
  ⟨trivial, integral_batch (integral_policyJson v), trivial⟩

theorem decode_encode (v : Version) (ps : List Policy) :
    decode v (Text.received (encode v ps)) = .ok ((represented v ps).map Policy.withoutTags) := by
  have hpolicies : ∀ p ∈ represented v ps,
      policyReader v (policyJson v p).document = .ok p.withoutTags :=
    fun p hp => policy_read fun hv => represented_single hv p hp
  have hlisting : reader v (listing v (represented v ps)).document =
      .ok ((represented v ps).map Policy.withoutTags) :=
    record_closed ((members_other rfl rfl).trans
      ((members_field rfl (by decide) (batch_read hpolicies)).trans rfl)) rfl
  rw [encode_eq]
  exact decode_eq ((Reader.ofText_received (reader v) (integral_listing v _)).trans hlisting)

theorem decode_encodeTagged (ps : List Policy) :
    decode .v1 (Text.received (encodeTagged ps)) = .ok (ps.map Policy.withoutTags) := by
  have hintegral : (Json.object [("policies", .list (ps.map Policy.toJson))]).Integral :=
    ⟨integral_batch integral_toJson, trivial⟩
  have hpolicies : ∀ p ∈ ps, policyReader .v1 p.toJson.document = .ok p.withoutTags :=
    fun p _ => tagged_read p
  have hlisting : reader .v1 (Json.object [("policies", .list (ps.map Policy.toJson))]).document =
      .ok (ps.map Policy.withoutTags) :=
    record_closed ((members_field rfl (by decide) (batch_read hpolicies)).trans rfl) rfl
  exact decode_eq ((Reader.ofText_received (reader .v1) hintegral).trans hlisting)

/-! ### The announced number of policies -/

/-- The number in the member `total_policies` of a body. -/
def total? (body : List Text.Symbol) : Option Nat :=
  match (Document.ofText body).1.member? "total_policies" with
  | some (.number n) => n.natural?
  | _ => none

theorem total?_encode (v : Version) (ps : List Policy) :
    total? (Text.received (encode v ps)) = some (represented v ps).length := by
  have htree := Document.ofText_received (integral_listing v (represented v ps))
  rw [total?, encode_eq, htree]
  exact Json.Numeral.natural?_natural _

/-! ### What is read from any body -/

/-- A policy that a body of the version can hold as it is. -/
structure Plain (v : Version) (p : Policy) : Prop where
  source : p.source.tag = ""
  destination : p.destination.tag = ""
  single : v = .v0 → p.destination.ports.isSingle

theorem Plain.withoutTags_eq (h : Plain v p) : p.withoutTags = p := by
  obtain ⟨⟨id, tag⟩, ⟨id', tag', protocol, ports⟩⟩ := p
  obtain ⟨rfl, rfl, -⟩ := h
  rfl

theorem keeps_text {α : Type} {P : α → Prop} {name : String} {set : String → α → α}
    {required : Bool} (hset : ∀ s a, P a → P (set s a)) :
    Keeps P (Json.Reader.field name Json.Reader.text set required) :=
  Json.Reader.keeps_field (fun _ _ _ => trivial) fun s a _ => hset s a

theorem keeps_tag {α : Type} {P : α → Prop} : Keeps P (tagField : Json.Reader.Field α) :=
  Json.Reader.keeps_field (fun _ _ _ => trivial) fun _ _ _ ha => ha

theorem plain_source {d : Document} {s : Source}
    (h : record "WireSource" (sourceFields v) Policy.blank.source d = .ok s) : s.tag = "" := by
  refine Json.Reader.record_keeps (P := fun s : Source => s.tag = "") ?_ rfl h
  have hid : Keeps (fun s : Source => s.tag = "") (idField fun s r => { r with id := s }) :=
    keeps_text fun _ _ ha => ha
  cases v with
  | v0 => simpa [sourceFields] using hid
  | v1 => simpa [sourceFields] using ⟨hid, keeps_tag⟩

theorem plain_destination {d : Document} {t : Destination}
    (h : record "WireDestination" (destinationFields v) Policy.blank.destination d = .ok t) :
    t.tag = "" ∧ (v = .v0 → t.ports.isSingle) := by
  let P : Destination → Prop := fun t => t.tag = "" ∧ (v = .v0 → t.ports.isSingle)
  have hblank : P Policy.blank.destination := ⟨rfl, fun _ => rfl⟩
  refine Json.Reader.record_keeps (P := P) ?_ hblank h
  have hid : Keeps P (idField fun s r => { r with id := s }) := keeps_text fun _ _ ha => ha
  have hprotocol : Keeps P (Json.Reader.field "protocol" Json.Reader.text
      (fun s r => { r with protocol := s }) false) := keeps_text fun _ _ ha => ha
  cases v with
  | v0 =>
    have hport : Keeps P (Json.Reader.field "port" Json.Reader.port
        (fun p r => { r with ports := .single p }) false) :=
      Json.Reader.keeps_field (fun _ _ _ => trivial) fun q a _ ha =>
        ⟨ha.1, fun _ => beq_self_eq_true q⟩
    simpa [destinationFields] using ⟨hid, hprotocol, hport⟩
  | v1 =>
    have hports : Keeps P (Json.Reader.field "ports" (Ports.reader "WirePorts" false)
        fun p r => { r with ports := p }) :=
      Json.Reader.keeps_field (fun _ _ _ => trivial) fun _ _ _ ha => ⟨ha.1, fun hv => nomatch hv⟩
    simpa [destinationFields] using ⟨hid, keeps_tag, hprotocol, hports⟩

theorem plain_policy {d : Document} (h : policyReader v d = .ok p) : Plain v p := by
  have hblank : Plain v Policy.blank := ⟨rfl, rfl, fun _ => rfl⟩
  refine Json.Reader.record_keeps ?_ hblank h
  have hsource : Keeps (Plain v) (Json.Reader.field "source"
      (record "WireSource" (sourceFields v) Policy.blank.source)
      fun s r => { r with source := s }) :=
    Json.Reader.keeps_field (fun _ _ => plain_source) fun _ _ hs hp =>
      ⟨hs, hp.destination, hp.single⟩
  have hdestination : Keeps (Plain v) (Json.Reader.field "destination"
      (record "WireDestination" (destinationFields v) Policy.blank.destination)
      fun d r => { r with destination := d }) :=
    Json.Reader.keeps_field (fun _ _ => plain_destination) fun _ _ hd hp =>
      ⟨hp.source, hd.1, hd.2⟩
  simpa using ⟨hsource, hdestination⟩

theorem decode_eq_ok {body : List Text.Symbol} (h : decode v body = .ok ps) :
    Reader.ofText (reader v) body = .ok ps := by
  cases hbody : Reader.ofText (reader v) body with
  | error e =>
    rw [decode_eq hbody] at h
    cases h
  | ok qs =>
    rw [decode_eq hbody] at h
    cases h
    rfl

theorem plain_decode {body : List Text.Symbol} (h : decode v body = .ok ps) :
    ∀ p ∈ ps, Plain v p := by
  obtain ⟨d, hd⟩ := Json.Reader.exists_of_ofText (decode_eq_ok h)
  have hpolicies : Keeps (fun ps => ∀ p ∈ ps, Plain v p) (Json.Reader.field "policies"
      (Json.Reader.list (policyReader v)) (fun ps _ => ps) false) :=
    Json.Reader.keeps_field (fun _ _ h => Json.Reader.list_keeps (fun _ _ => plain_policy) h)
      fun _ _ hps _ => hps
  refine Json.Reader.record_keeps (P := fun ps => ∀ p ∈ ps, Plain v p) ?_ (by simp) hd
  simpa using hpolicies

theorem represented_eq_self (h : ∀ p ∈ ps, Plain v p) : represented v ps = ps := by
  cases v with
  | v0 => exact List.filter_eq_self.mpr fun p hp => (h p hp).single rfl
  | v1 => rfl

theorem decode_encode_decode {body : List Text.Symbol} (h : decode v body = .ok ps) :
    decode v (Text.received (encode v ps)) = .ok ps := by
  have hplain := plain_decode h
  have huntagged : ps.map Policy.withoutTags = ps :=
    (List.map_congr_left fun p hp => (hplain p hp).withoutTags_eq).trans (List.map_id ps)
  rw [decode_encode, represented_eq_self hplain, huntagged]

/-- The bodies of both versions and the internal listing give back all that was put into them but
the tags, less the policies of several ports that the older version leaves out, and announce as many
policies as they hold. What was read from any body at all, however it was written, is written in a
normal form, which holds the same policies and is written as itself again. -/
theorem round_trip :
    (∀ ps, decode .v1 (Text.received (encode .v1 ps)) = .ok (ps.map Policy.withoutTags)) ∧
    (∀ ps, decode .v0 (Text.received (encode .v0 ps)) =
      .ok ((ps.filter fun p => p.destination.ports.first = p.destination.ports.last).map
        Policy.withoutTags)) ∧
    (∀ ps, decode .v1 (Text.received (encodeTagged ps)) = .ok (ps.map Policy.withoutTags)) ∧
    (∀ v ps, ∃ qs, decode v (Text.received (encode v ps)) = .ok qs ∧
      total? (Text.received (encode v ps)) = some qs.length) ∧
    (∀ v (body : ByteArray) ps, decode v (Text.ofBytes body) = .ok ps →
      decode v (Text.received (encode v ps)) = .ok ps ∧
      (decode v (Text.received (encode v ps))).map (encode v) = .ok (encode v ps)) := by
  refine ⟨decode_encode .v1, decode_encode .v0, decode_encodeTagged, fun v ps => ?_,
    fun v body ps h => ?_⟩
  · have htotal := total?_encode v ps
    refine ⟨_, decode_encode v ps, ?_⟩
    rw [htotal, List.length_map]
  · have hsame := decode_encode_decode h
    refine ⟨hsame, ?_⟩
    rw [hsame]
    rfl

/-- An object of a body, by what is between its braces. -/
def braced (members : String) : String := String.singleton '{' ++ members ++ String.singleton '}'

/-- A body with escapes, members in another order and one that no reader asks for. -/
def looseBody : String :=
  let destination := braced r#""port": 80, "protocol": "tcp", "id": "\u00e9\n""#
  let source := braced r#""id": "\"b""#
  let policy := braced (r#""destination": "# ++ destination ++ r#", "source": "# ++ source)
  braced (r#""more": [1e9], "policies": ["# ++ policy ++ "]")

theorem round_trip_loose_body :
    ∃ p, decode .v0 (Text.ofBytes looseBody.toUTF8) = .ok [p] ∧
      encode .v0 [p] ≠ looseBody ∧
      decode .v0 (Text.received (encode .v0 [p])) = .ok [p] ∧
      (decode .v0 (Text.received (encode .v0 [p]))).map (encode .v0) = .ok (encode .v0 [p]) := by
  have hread : decode .v0 (Text.ofBytes looseBody.toUTF8) =
      .ok [⟨⟨"\"b", ""⟩, ⟨"é\n", "", "tcp", ⟨80, 80⟩⟩⟩] := by
    have hchars : Text.ofBytes looseBody.toUTF8 = Text.ofChars looseBody.toList :=
      Text.received_eq looseBody
    rw [hchars]
    decide +kernel
  exact ⟨_, hread, by decide +kernel, round_trip.2.2.2.2 .v0 looseBody.toUTF8 _ hread⟩

end Body
end NetworkPolicy
