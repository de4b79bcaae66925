import NetworkPolicy.Proofs.Store.Reading

/-! Tables whose rows refer to rows that exist, and hold no row that is not needed: so are all tables
that hold what a store in memory holds. -/
namespace NetworkPolicy.Database

/-- The number fits a port. -/
def IsPort (n : Int) : Prop := 0 ≤ n ∧ n < 65536

theorem isPort_toNat (port : UInt16) : IsPort port.toNat := by
  have := port.toNat_lt
  unfold IsPort
  omega

theorem mem_groupRows {p : GroupPool} {g : GroupRow} :
    g ∈ groupRows p ↔ ∃ i : Nat, 1 ≤ i ∧ i ≤ p.size ∧ g = ⟨i, p.guidOf? i⟩ := by
  rw [groupRows, List.mem_map]
  constructor
  · rintro ⟨i, hi, rfl⟩
    obtain ⟨h1, h2⟩ := List.mem_range'_1.mp hi
    exact ⟨i, h1, by omega, rfl⟩
  · rintro ⟨i, h1, h2, rfl⟩
    exact ⟨i, List.mem_range'_1.mpr ⟨h1, by omega⟩, rfl⟩

namespace Tables

variable {t : Tables} {m : MemoryStore}

/-- A policy uses the group, as its source or as that of its destination. -/
def Uses (t : Tables) (p : PolicyRow) (group : Int) : Prop :=
  p.group = group ∨ ∃ d ∈ t.destinations, d.id = p.destination ∧ d.group = group

/-- Rows refer to rows that exist, destinations are used, just the groups that are used are assigned,
nothing is stored twice, and ports fit. -/
structure Sound (t : Tables) : Prop where
  groupIds : (t.groups.map (·.id)).Nodup
  destinationIds : (t.destinations.map (·.id)).Nodup
  source : ∀ p ∈ t.policies, ∃ g ∈ t.groups, g.id = p.group
  destination : ∀ p ∈ t.policies, ∃ d ∈ t.destinations, d.id = p.destination
  group : ∀ d ∈ t.destinations, ∃ g ∈ t.groups, g.id = d.group
  used : ∀ d ∈ t.destinations, ∃ p ∈ t.policies, p.destination = d.id
  assigned_iff : ∀ g ∈ t.groups, g.guid.isSome ↔ ∃ p ∈ t.policies, t.Uses p g.id
  guids : (t.groups.filterMap (·.guid)).Nodup
  contents : (t.destinations.map DestinationRow.content).Nodup
  pairs : (t.policies.map fun p => (p.group, p.destination)).Nodup
  ports : ∀ d ∈ t.destinations, IsPort d.first ∧ IsPort d.last

theorem Represents.exists_row (h : t.Represents m) {d : DestinationRow} (hd : d ∈ t.destinations) :
    ∃ r ∈ m.rows, d.content = destinationContent r := by
  obtain ⟨p, hp, hpd⟩ := h.used d hd
  obtain ⟨r, hr, -, e, he, hep, hcontent⟩ := h.toMirrors.exists_row hp
  obtain rfl : e = d := List.inj_on_of_nodup_map h.ids he hd (hep.trans hpd)
  exact ⟨r, hr, hcontent⟩

/-- A policy uses the group that the row in memory names. -/
theorem Mirrors.uses_iff (h : t.Mirrors m) {p : PolicyRow} {r : MemoryRow} (hpr : t.Shows p r)
    (i : Nat) : t.Uses p i ↔ r.source = i ∨ r.destination = i := by
  obtain ⟨hsource, d, hd, hid, hcontent⟩ := hpr
  have hgroup : d.group = r.destination := congrArg Prod.fst hcontent
  have hunique : (∃ e ∈ t.destinations, e.id = p.destination ∧ e.group = i) ↔ d.group = i := by
    constructor
    · rintro ⟨e, he, hep, hegroup⟩
      obtain rfl : e = d := List.inj_on_of_nodup_map h.ids he hd (hep.trans hid.symm)
      exact hegroup
    · exact fun hdgroup => ⟨d, hd, hid, hdgroup⟩
  rw [Uses, hunique, hsource, hgroup, Int.ofNat_inj, Int.ofNat_inj]

theorem Mirrors.exists_group (h : t.Mirrors m) (hm : m.Valid) {i : Nat}
    (hi : (m.groups.guidOf? i).isSome) : ∃ g ∈ t.groups, g.id = i := by
  obtain ⟨guid, hguid⟩ := Option.isSome_iff_exists.mp hi
  obtain ⟨h1, h2⟩ := GroupPool.bounded_of_guidOf? hm.groups hguid
  rw [h.groups]
  exact ⟨_, mem_groupRows.mpr ⟨i, h1, h2, rfl⟩, rfl⟩

/-- Tables that hold what a valid store in memory holds are sound. -/
theorem Represents.sound (h : t.Represents m) (hm : m.Valid) : t.Sound where
  groupIds := by
    rw [h.groups, groupRows, List.map_map]
    have hids : (List.range' 1 m.groups.size).Nodup := List.nodup_range'
    exact hids.map fun _ _ hij => Int.ofNat_inj.mp hij
  destinationIds := h.ids
  source := by
    intro p hp
    obtain ⟨r, hr, hsource, -⟩ := h.toMirrors.exists_row hp
    obtain ⟨a, -, ha, -⟩ := hm.named r hr
    exact hsource ▸ h.toMirrors.exists_group hm (ha ▸ rfl)
  destination := by
    intro p hp
    obtain ⟨r, -, -, d, hd, hid, -⟩ := h.toMirrors.exists_row hp
    exact ⟨d, hd, hid⟩
  group := by
    intro d hd
    obtain ⟨r, hr, hcontent⟩ := h.exists_row hd
    have hgroup : d.group = r.destination := congrArg Prod.fst hcontent
    obtain ⟨-, b, -, hb⟩ := hm.named r hr
    exact hgroup ▸ h.toMirrors.exists_group hm (hb ▸ rfl)
  used := h.used
  assigned_iff := by
    intro g hg
    rw [h.groups] at hg
    obtain ⟨i, -, -, rfl⟩ := mem_groupRows.mp hg
    rw [hm.assigned_iff i, MemoryStore.references_eq_true]
    constructor
    · rintro ⟨r, hr, hi⟩
      obtain ⟨p, hp, hpr⟩ := h.toMirrors.exists_policy hr
      exact ⟨p, hp, (h.uses_iff hpr i).mpr hi⟩
    · rintro ⟨p, hp, huses⟩
      obtain ⟨r, hr, hpr⟩ := h.toMirrors.exists_row hp
      exact ⟨r, hr, (h.uses_iff hpr i).mp huses⟩
  guids := by
    have hassigned : t.groups.filterMap (·.guid) = t.assigned.map (·.2) := by
      rw [assigned, List.map_filterMap]
      refine List.filterMap_congr fun g _ => ?_
      cases g.guid <;> rfl
    rw [hassigned, assigned_eq h.groups hm.groups, List.map_map]
    exact hm.groups.distinct
  contents := h.contents
  pairs := by
    refine nodup_map_of_forall₂ h.rows hm.rows ?_
    rintro p p' r r' hpr ⟨hsource, d, hd, hid, hcontent⟩ hsame
    obtain ⟨hgroup, hdestination⟩ := Prod.mk.inj hsame
    exact (h.eq_iff hpr hd hcontent).mp ⟨hgroup.trans hsource, hdestination.trans hid.symm⟩
  ports := by
    intro d hd
    obtain ⟨r, -, hcontent⟩ := h.exists_row hd
    simp only [DestinationRow.content, destinationContent, Prod.mk.injEq] at hcontent
    obtain ⟨-, hfirst, hlast, -⟩ := hcontent
    exact ⟨hfirst ▸ isPort_toNat _, hlast ▸ isPort_toNat _⟩

end Tables
end NetworkPolicy.Database
