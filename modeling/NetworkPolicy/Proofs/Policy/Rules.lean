import NetworkPolicy.Policy.Body
import NetworkPolicy.Proofs.Lists

/-! What the rules of either version say of each policy of a batch that they let pass. -/
namespace NetworkPolicy

namespace Policy

/-- A policy between two named applications, for a known protocol and a range of ports. -/
structure Proper (p : Policy) : Prop where
  source : p.source.id ≠ ""
  destination : p.destination.id ≠ ""
  protocol : p.destination.protocol = "tcp" ∨ p.destination.protocol = "udp"
  positive : 1 ≤ p.destination.ports.first.toNat
  ordered : p.destination.ports.first.toNat ≤ p.destination.ports.last.toNat
  bounded : p.destination.ports.last.toNat ≤ 65535

variable {p q : Policy} {ps : List Policy}

/-- Only what tells policies apart counts. -/
theorem Proper.of_key_eq (h : p.Proper) (hkey : q.key = p.key) : q.Proper := by
  obtain ⟨hsource, hdestination, hprotocol, hports⟩ := Key.mk.inj hkey
  refine ⟨?_, ?_, ?_, ?_, ?_, ?_⟩
  · exact hsource ▸ h.source
  · exact hdestination ▸ h.destination
  · exact hprotocol ▸ h.protocol
  · exact hports ▸ h.positive
  · exact hports ▸ h.ordered
  · exact hports ▸ h.bounded

theorem checkEnds_eq_ok (h : p.checkEnds = .ok ()) : p.source.id ≠ "" ∧ p.destination.id ≠ "" ∧
    (p.destination.protocol = "tcp" ∨ p.destination.protocol = "udp") := by
  unfold checkEnds at h
  split_ifs at h with hsource hdestination hprotocol
  refine ⟨?_, ?_, hprotocol⟩
  · simpa using hsource
  · simpa using hdestination

theorem proper_of_ports (hends : p.checkEnds = .ok ()) (hfirst : p.destination.ports.first ≠ 0)
    (hordered : p.destination.ports.first ≤ p.destination.ports.last) : p.Proper := by
  obtain ⟨hsource, hdestination, hprotocol⟩ := checkEnds_eq_ok hends
  have hnonzero : p.destination.ports.first.toNat ≠ 0 := fun h => hfirst (UInt16.toNat_inj.mp h)
  have hlast : p.destination.ports.last.toNat < 2 ^ 16 := p.destination.ports.last.toNat_lt
  exact ⟨hsource, hdestination, hprotocol, by omega, UInt16.le_iff_toNat_le.mp hordered, by omega⟩

theorem proper_of_check (h : p.check = .ok ()) : p.Proper := by
  obtain ⟨_, hends, h⟩ := bind_eq_ok.mp h
  dsimp only at h
  split_ifs at h with hfirst hlast hrange
  exact proper_of_ports hends hfirst (UInt16.not_lt.mp hrange)

theorem proper_of_checkSingle (h : p.checkSingle = .ok ()) : p.Proper := by
  obtain ⟨_, hends, h⟩ := bind_eq_ok.mp h
  dsimp only at h
  split_ifs at h with hport
  obtain ⟨hfirst, hsingle⟩ := not_or.mp hport
  have hsame : p.destination.ports.first = p.destination.ports.last := by
    simpa [Ports.isSingle] using hsingle
  exact proper_of_ports hends hfirst (UInt16.le_of_eq hsame)

theorem checkEnds_of_proper (h : p.Proper) : p.checkEnds = .ok () := by
  have hsource : p.source.id.isEmpty = false := by simpa using h.source
  have hdestination : p.destination.id.isEmpty = false := by simpa using h.destination
  rw [checkEnds, hsource, hdestination]
  exact if_pos h.protocol

theorem Proper.ports_ne_zero (h : p.Proper) :
    p.destination.ports.first ≠ 0 ∧ p.destination.ports.last ≠ 0 := by
  have hpositive := h.positive
  have hordered := h.ordered
  constructor
  · intro hzero
    rw [hzero, UInt16.toNat_zero] at hpositive
    omega
  · intro hzero
    rw [hzero, UInt16.toNat_zero] at hordered
    omega

theorem check_of_proper (h : p.Proper) : p.check = .ok () := by
  obtain ⟨hfirst, hlast⟩ := h.ports_ne_zero
  have hordered : ¬ p.destination.ports.last < p.destination.ports.first :=
    UInt16.not_lt.mpr (UInt16.le_iff_toNat_le.mpr h.ordered)
  rw [check, checkEnds_of_proper h]
  simp only [bind, Except.bind, if_neg hfirst, if_neg hlast, if_neg hordered]

theorem checkSingle_of_proper (h : p.Proper) (hsingle : p.destination.ports.isSingle = true) :
    p.checkSingle = .ok () := by
  have hport : ¬ (p.destination.ports.first = 0 ∨ p.destination.ports.isSingle = false) := by
    rw [hsingle]
    simpa using h.ports_ne_zero.1
  rw [checkSingle, checkEnds_of_proper h]
  exact if_neg hport

theorem checkAll_eq_ok {check : Policy → Except Invalid Unit} (h : checkAll check ps = .ok ()) :
    ∀ p ∈ ps, check p = .ok () := by
  unfold checkAll at h
  split_ifs at h
  exact forM_eq_ok h

theorem checkAll_of_forall {check : Policy → Except Invalid Unit} (hne : ps ≠ [])
    (h : ∀ p ∈ ps, check p = .ok ()) : checkAll check ps = .ok () := by
  have hpass : ∀ qs : List Policy, (∀ p ∈ qs, check p = .ok ()) → qs.forM check = .ok () := by
    intro qs hqs
    induction qs with
    | nil => rfl
    | cons q qs ih =>
      rw [List.forM_eq_forM, List.forM_cons, hqs q List.mem_cons_self]
      exact ih fun p hp => hqs p (List.mem_cons_of_mem _ hp)
  rw [checkAll, if_neg (by simpa using hne)]
  exact hpass ps h

end Policy

theorem Body.proper_of_validate {v : Version} {ps : List Policy} (h : validate v ps = .ok ()) :
    ∀ p ∈ ps, p.Proper := by
  intro p hp
  cases v with
  | v0 => exact Policy.proper_of_checkSingle (Policy.checkAll_eq_ok h p hp)
  | v1 => exact Policy.proper_of_check (Policy.checkAll_eq_ok h p hp)

/-- A batch of proper policies that the version can name keeps the rules of the version. -/
theorem Body.validate_of_proper {v : Version} {ps : List Policy} (hne : ps ≠ [])
    (hproper : ∀ p ∈ ps, p.Proper) (hsingle : v = .v0 → ∀ p ∈ ps, p.destination.ports.isSingle) :
    validate v ps = .ok () := by
  cases v with
  | v0 =>
    exact Policy.checkAll_of_forall hne fun p hp =>
      Policy.checkSingle_of_proper (hproper p hp) (hsingle rfl p hp)
  | v1 => exact Policy.checkAll_of_forall hne fun p hp => Policy.check_of_proper (hproper p hp)

end NetworkPolicy
