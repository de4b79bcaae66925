import NetworkPolicy.Proofs.Policy.RoundTrip

/-! The JSON text of one policy with its tags: it is read back as the policy that it was written from,
so it tells any two policies apart. -/
namespace NetworkPolicy.Policy

open Json.Reader (record_closed members_field)

/-! ### Reading back -/

-- an empty tag is not written, and a tag that is not written is read as empty
theorem sourceReader_eq (s : Source) : sourceReader
    (Json.object (("id", .text s.id) :: textUnlessEmpty "tag" s.tag)).document = .ok s := by
  obtain ⟨id, tag⟩ := s
  have hid := Body.text_read id
  have htag := Body.text_read tag
  unfold textUnlessEmpty
  split
  · rename_i hempty
    obtain rfl := String.isEmpty_iff.mp hempty
    exact record_closed ((members_field rfl (by decide) hid).trans rfl) rfl
  · exact record_closed ((members_field rfl (by decide) hid).trans
      ((members_field rfl (by decide) htag).trans rfl)) rfl

theorem destinationReader_eq (d : Destination) : destinationReader
    (Json.object (("id", .text d.id) :: textUnlessEmpty "tag" d.tag ++
      [("protocol", .text d.protocol), ("ports", d.ports.toJson)])).document = .ok d := by
  obtain ⟨id, tag, protocol, ports⟩ := d
  have hid := Body.text_read id
  have htag := Body.text_read tag
  have hprotocol := Body.text_read protocol
  have hports := Body.ports_read ports "Ports" true
  unfold textUnlessEmpty
  split
  · rename_i hempty
    obtain rfl := String.isEmpty_iff.mp hempty
    exact record_closed ((members_field rfl (by decide) hid).trans
      ((members_field rfl (by decide) hprotocol).trans
        ((members_field rfl (by decide) hports).trans rfl))) rfl
  · exact record_closed ((members_field rfl (by decide) hid).trans
      ((members_field rfl (by decide) htag).trans
        ((members_field rfl (by decide) hprotocol).trans
          ((members_field rfl (by decide) hports).trans rfl)))) rfl

theorem parse_render (p : Policy) : parse p.render = .ok p := by
  have hpolicy : reader p.toJson.document = .ok p :=
    record_closed ((members_field rfl (by decide) (sourceReader_eq p.source)).trans
      ((members_field rfl (by decide) (destinationReader_eq p.destination)).trans rfl)) rfl
  have htext := Json.Reader.ofText_received reader (Body.integral_toJson p)
  rw [Text.received_eq] at htext
  exact htext.trans hpolicy

theorem render_injective : Function.Injective render := by
  intro p q h
  have hread : parse p.render = parse q.render := congrArg parse h
  rw [parse_render, parse_render] at hread
  exact Except.ok.inj hread

/-- A policy is read back from its text with all that it says, so no two policies have the same text.
Tags may be cleared before the text is written or after it was read: both give the same policy, which
is still stored under the key of the first one. -/
theorem text_faithful :
    (∀ p : Policy, parse p.render = .ok p) ∧
    (∀ p q : Policy, p.render = q.render → p = q) ∧
    ∀ p : Policy, ∃ q : Policy, parse p.withoutTags.render = .ok q ∧
      (parse p.render).map withoutTags = .ok q ∧ q.source.tag = "" ∧ q.destination.tag = "" ∧
      q.key = p.key := by
  refine ⟨parse_render, fun p q h => render_injective h, fun p => ?_⟩
  have hafter : (parse p.render).map withoutTags = .ok p.withoutTags := by
    rw [parse_render]
    rfl
  exact ⟨p.withoutTags, parse_render p.withoutTags, hafter, rfl, rfl, rfl⟩

end NetworkPolicy.Policy
