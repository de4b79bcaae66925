import NetworkPolicy.Proofs.Policy.RoundTrip
import NetworkPolicy.Proofs.Policy.Rules

/-! Bodies of one version read as those of the other. The newer version misses the range in every policy
of the older one. The older version takes the newer one's bodies for policies at port 0, which its rules
refuse. -/
namespace NetworkPolicy

open Json.Reader (record record_closed record_error record_missing members_field members_error
  members_other)

/-- The policy with no port that a connection could be opened to, and without tags. -/
def Policy.atPortZero (p : Policy) : Policy :=
  ⟨⟨p.source.id, ""⟩, ⟨p.destination.id, "", p.destination.protocol, .single 0⟩⟩

namespace Body

variable {ps : List Policy}

/-- What the newer version says of a destination without a range. -/
def rangeMissing : Json.ReadError := .mismatch (.missingField "ports")

/-! ### The newer version's reader on the older version's bodies -/

theorem destination_read_single (d : Destination) :
    record "WireDestination" (destinationFields .v1) Policy.blank.destination
      (destinationJson .v0 d).document = .error rangeMissing := by
  have hid := text_read d.id
  have hprotocol := text_read d.protocol
  -- the port is passed over as an unknown member, so that the range is never set
  have hport : (Json.natural d.ports.first.toNat).document.skip = .ok () := rfl
  apply record_missing (i := 3)
  · exact (members_field rfl (by decide) hid).trans
      ((members_field rfl (by decide) hprotocol).trans ((members_other rfl hport).trans rfl))
  · rfl

theorem policy_read_single (p : Policy) :
    policyReader .v1 (policyJson .v0 p).document = .error rangeMissing := by
  have hsource := source_read .v1 p.source.id
  have hdestination := destination_read_single p.destination
  apply record_error
  exact (members_field rfl (by decide) hsource).trans (members_error rfl (by decide) hdestination)

/-- The first policy of a batch of the older version already stops the newer one's reader. -/
theorem batch_read_single (h : ps ≠ []) :
    Json.Reader.list (policyReader .v1) (Json.list (ps.map (policyJson .v0))).document =
      .error rangeMissing := by
  cases ps with
  | nil => exact absurd rfl h
  | cons p ps =>
    have hfirst := policy_read_single p
    have helements : (Json.elementDocuments ((p :: ps).map (policyJson .v0))).mapM
        (policyReader .v1) = .error rangeMissing := by
      rw [Json.elementDocuments_eq, List.map_cons, List.map_cons, List.mapM_cons, hfirst]
      rfl
    rw [Json.document, Json.Reader.list, helements]
    rfl

theorem decode_listing_single (h : ps ≠ []) :
    decode .v1 (Text.received (listing .v0 ps).render) = .error ⟨rangeMissing⟩ := by
  have hbatch := batch_read_single h
  have hlisting : reader .v1 (listing .v0 ps).document = .error rangeMissing := by
    apply record_error
    exact (members_other rfl rfl).trans (members_error rfl (by decide) hbatch)
  exact decode_eq ((Json.Reader.ofText_received (reader .v1) (integral_listing .v0 ps)).trans hlisting)

theorem decode_listing_nil (v v' : Version) :
    decode v (Text.received (listing v' []).render) = .ok [] := by
  have hbatch : Json.Reader.list (policyReader v) (Json.list []).document = .ok [] := rfl
  have hlisting : reader v (listing v' []).document = .ok [] :=
    record_closed ((members_other rfl rfl).trans
      ((members_field rfl (by decide) hbatch).trans rfl)) rfl
  exact decode_eq ((Json.Reader.ofText_received (reader v) (integral_listing v' [])).trans hlisting)

theorem exists_single_iff :
    (∃ p ∈ ps, p.destination.ports.first = p.destination.ports.last) ↔
      represented .v0 ps ≠ [] := by
  simp [represented, Ports.isSingle]

theorem decode_v1_encode_v0 (ps : List Policy) : decode .v1 (Text.received (encode .v0 ps)) =
    if ∃ p ∈ ps, p.destination.ports.first = p.destination.ports.last then .error ⟨rangeMissing⟩
    else .ok [] := by
  rw [encode_eq]
  split_ifs with hsingle
  · have hsome := exists_single_iff.mp hsingle
    exact decode_listing_single hsome
  · have hnone : represented .v0 ps = [] := not_not.mp (mt exists_single_iff.mpr hsingle)
    rw [hnone]
    exact decode_listing_nil .v1 .v0

/-! ### The older version's reader on the newer version's bodies -/

theorem policy_read_range (p : Policy) :
    policyReader .v0 (policyJson .v1 p).document = .ok p.atPortZero := by
  have hid := text_read p.destination.id
  have hprotocol := text_read p.destination.protocol
  have hports : p.destination.ports.toJson.document.skip = .ok () := rfl
  have hdestination : record "WireDestination" (destinationFields .v0) Policy.blank.destination
      (destinationJson .v1 p.destination).document = .ok p.atPortZero.destination :=
    record_closed ((members_field rfl (by decide) hid).trans
      ((members_field rfl (by decide) hprotocol).trans ((members_other rfl hports).trans rfl))) rfl
  exact policyReader_eq (source_read .v0 p.source.id) hdestination

theorem tagged_read_range (p : Policy) :
    policyReader .v0 p.toJson.document = .ok p.atPortZero := by
  have hports : p.destination.ports.toJson.document.skip = .ok () := rfl
  have htag : ∀ t : String, (Json.text t).document.skip = .ok () := fun _ => rfl
  apply policyReader_eq
  · have hid := text_read p.source.id
    unfold textUnlessEmpty
    split
    · exact source_read .v0 p.source.id
    · exact record_closed ((members_field rfl (by decide) hid).trans
        ((members_other rfl (htag _)).trans rfl)) rfl
  · have hid := text_read p.destination.id
    have hprotocol := text_read p.destination.protocol
    unfold textUnlessEmpty
    split
    · exact record_closed ((members_field rfl (by decide) hid).trans
        ((members_field rfl (by decide) hprotocol).trans ((members_other rfl hports).trans rfl))) rfl
    · exact record_closed ((members_field rfl (by decide) hid).trans
        ((members_other rfl (htag _)).trans ((members_field rfl (by decide) hprotocol).trans
          ((members_other rfl hports).trans rfl)))) rfl

theorem decode_v0_encode_v1 (ps : List Policy) :
    decode .v0 (Text.received (encode .v1 ps)) = .ok (ps.map Policy.atPortZero) := by
  have hbatch := batch_read fun p (_ : p ∈ ps) => policy_read_range p
  have hlisting : reader .v0 (listing .v1 ps).document = .ok (ps.map Policy.atPortZero) :=
    record_closed ((members_other rfl rfl).trans
      ((members_field rfl (by decide) hbatch).trans rfl)) rfl
  exact decode_eq ((Json.Reader.ofText_received (reader .v0) (integral_listing .v1 ps)).trans hlisting)

theorem decode_v0_encodeTagged (ps : List Policy) :
    decode .v0 (Text.received (encodeTagged ps)) = .ok (ps.map Policy.atPortZero) := by
  have hintegral : (Json.object [("policies", .list (ps.map Policy.toJson))]).Integral :=
    ⟨integral_batch integral_toJson, trivial⟩
  have hbatch := batch_read fun p (_ : p ∈ ps) => tagged_read_range p
  have hlisting : reader .v0 (Json.object [("policies", .list (ps.map Policy.toJson))]).document =
      .ok (ps.map Policy.atPortZero) :=
    record_closed ((members_field rfl (by decide) hbatch).trans rfl) rfl
  exact decode_eq ((Json.Reader.ofText_received (reader .v0) hintegral).trans hlisting)

/-! ### What the rules let pass -/

/-- The body is a batch of the version, and the rules of the version hold for it. -/
def Admits (v : Version) (body : List Text.Symbol) : Prop :=
  ∃ ps, decode v body = .ok ps ∧ validate v ps = .ok ()

theorem validate_nil (v : Version) : validate v [] = .error .missingPolicies := by
  cases v <;> rfl

theorem not_admits_nil {v : Version} {body : List Text.Symbol} (h : decode v body = .ok []) :
    ¬ Admits v body := by
  rintro ⟨ps, hps, hvalid⟩
  obtain rfl := Except.ok.inj (h.symm.trans hps)
  exact nomatch (validate_nil v).symm.trans hvalid

theorem not_admits_atPortZero {v : Version} {body : List Text.Symbol}
    (h : decode v body = .ok (ps.map Policy.atPortZero)) : ¬ Admits v body := by
  cases ps with
  | nil => exact not_admits_nil h
  | cons p ps =>
    rintro ⟨qs, hqs, hvalid⟩
    obtain rfl := Except.ok.inj (h.symm.trans hqs)
    have hproper := proper_of_validate hvalid p.atPortZero List.mem_cons_self
    have hpositive : 1 ≤ (0 : UInt16).toNat := hproper.positive
    simp at hpositive

/-- Of a body that the other version has written, the newer version says that the range is missing as
soon as there is a policy in it, and the older version reads each policy with its ids and its protocol,
but at port 0. So neither admits what the other one writes. -/
theorem never_misread :
    (∀ ps, decode .v1 (Text.received (encode .v0 ps)) =
      if ∃ p ∈ ps, p.destination.ports.first = p.destination.ports.last then
        .error ⟨.mismatch (.missingField "ports")⟩
      else .ok []) ∧
    (∀ ps, decode .v0 (Text.received (encode .v1 ps)) = .ok (ps.map Policy.atPortZero)) ∧
    (∀ ps, decode .v0 (Text.received (encodeTagged ps)) = .ok (ps.map Policy.atPortZero)) ∧
    ∀ ps, ¬ Admits .v1 (Text.received (encode .v0 ps)) ∧
      ¬ Admits .v0 (Text.received (encode .v1 ps)) ∧
      ¬ Admits .v0 (Text.received (encodeTagged ps)) := by
  refine ⟨decode_v1_encode_v0, decode_v0_encode_v1, decode_v0_encodeTagged, fun ps => ⟨?_, ?_, ?_⟩⟩
  · have hread := decode_v1_encode_v0 ps
    split_ifs at hread
    · rintro ⟨qs, hqs, -⟩
      exact nomatch hread.symm.trans hqs
    · exact not_admits_nil hread
  · exact not_admits_atPortZero (decode_v0_encode_v1 ps)
  · exact not_admits_atPortZero (decode_v0_encodeTagged ps)

end Body
end NetworkPolicy
