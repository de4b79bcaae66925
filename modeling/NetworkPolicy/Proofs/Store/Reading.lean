import NetworkPolicy.Proofs.Store.Representation

/-! What is read from tables that hold what a store in memory holds: the same policies, in the same
order, and the same tags. -/
namespace NetworkPolicy.Database

open MemoryStore (Named policyOf policies)

variable {ε : Type} {t : Tables} {s : MemoryStore}

/-- What the tables join a policy with. -/
def joinedRow (s : MemoryStore) (r : MemoryRow) : JoinedRow :=
  ⟨⟨r.source, s.groups.guidOf? r.source⟩, ⟨r.destination, s.groups.guidOf? r.destination⟩,
    r.protocol, r.ports.first.toNat, r.ports.last.toNat⟩

/-! ### Cells -/

theorem storedGroup_natCast (i : Nat) : storedGroup i = .ok i := by
  rw [storedGroup, if_neg (Int.not_lt.mpr (Int.natCast_nonneg i)), Int.toNat_natCast]

theorem storedPort_toNat (port : UInt16) : storedPort port.toNat = .ok port := by
  have hlt : ((port.toNat : Nat) : Int) < 65536 := by
    have := port.toNat_lt
    omega
  rw [storedPort, if_pos ⟨Int.natCast_nonneg _, hlt⟩, Int.toNat_natCast, Nat.toUInt16,
    UInt16.ofNat_toNat]

theorem storedPolicy_joinedRow {r : MemoryRow} {a b : String}
    (ha : s.groups.guidOf? r.source = some a) (hb : s.groups.guidOf? r.destination = some b) :
    storedPolicy s.tagLength a b (joinedRow s r) = .ok (s.policyOf r) := by
  simp only [storedPolicy, joinedRow, storedGroup_natCast, storedPort_toNat, policyOf, ha, hb,
    Option.getD_some]
  rfl

/-! ### Policies -/

namespace Tables

theorem group?_eq {p : GroupPool} (ht : t.groups = groupRows p) {i : Nat} (h1 : 1 ≤ i)
    (h2 : i ≤ p.size) : t.group? i = some ⟨i, p.guidOf? i⟩ := by
  have hfind : (List.range' 1 p.size).find? (fun j : Nat => (j : Int) == (i : Int)) = some i := by
    refine List.find?_range'_eq_some.mpr ⟨beq_self_eq_true _, ?_, fun j _ hj => ?_⟩
    · rw [List.mem_range'_1]
      omega
    · rw [Bool.not_eq_true', beq_eq_false_iff_ne]
      omega
  rw [group?, ht, groupRows, List.find?_map]
  exact congrArg (Option.map _) hfind

/-- The policies join to the rows in memory, in the same order. -/
theorem Mirrors.joined_eq (h : t.Mirrors s) (hg : s.groups.Valid) (hs : s.Named) :
    t.joined = s.rows.map (joinedRow s) := by
  refine filterMap_eq_map_of_forall₂ h.rows fun p r hr hpr => ?_
  obtain ⟨hsource, d, hd, hid, hcontent⟩ := hpr
  simp only [DestinationRow.content, destinationContent, Prod.mk.injEq] at hcontent
  obtain ⟨hgroup, hfirst, hlast, hprotocol⟩ := hcontent
  obtain ⟨a, b, ha, hb⟩ := hs r hr
  obtain ⟨ha1, ha2⟩ := GroupPool.bounded_of_guidOf? hg ha
  obtain ⟨hb1, hb2⟩ := GroupPool.bounded_of_guidOf? hg hb
  simp only [join, hsource, group?_eq h.groups ha1 ha2, (destination?_eq_some h.ids).mpr ⟨hd, hid⟩,
    hgroup, group?_eq h.groups hb1 hb2, hprotocol, hfirst, hlast, bind, Option.bind, joinedRow]
  rfl

theorem Mirrors.mapM_joined (h : t.Mirrors s) (hg : s.groups.Valid) (hs : s.Named)
    {read : JoinedRow → Except ε Policy}
    (hread : ∀ r ∈ s.rows, read (joinedRow s r) = .ok (s.policyOf r)) :
    t.joined.mapM read = .ok s.policies := by
  rw [h.joined_eq hg hs, List.mapM_map]
  exact mapM_eq_ok hread

theorem Mirrors.mapM_joinedFor (h : t.Mirrors s) (hg : s.groups.Valid) (hs : s.Named)
    {read : JoinedRow → Except ε Policy}
    (hread : ∀ r ∈ s.rows, read (joinedRow s r) = .ok (s.policyOf r))
    (sources destinations : List String) :
    (t.joinedFor sources destinations).mapM read = .ok (s.policies.filter fun p =>
      sources.contains p.source.id || destinations.contains p.destination.id) := by
  rw [joinedFor, h.joined_eq hg hs, List.filter_map, List.mapM_map, MemoryStore.policies,
    List.filter_map]
  have hsame : s.rows.filter ((fun r : JoinedRow =>
      r.source.guid.any sources.contains || r.destination.guid.any destinations.contains) ∘
        joinedRow s) =
      s.rows.filter ((fun p : Policy =>
        sources.contains p.source.id || destinations.contains p.destination.id) ∘ s.policyOf) := by
    refine List.filter_congr fun r hr => ?_
    obtain ⟨a, b, ha, hb⟩ := hs r hr
    simp only [Function.comp_apply, joinedRow, policyOf, ha, hb, Option.any_some, Option.getD_some]
  rw [hsame]
  exact mapM_eq_ok fun r hr => hread r (List.mem_of_mem_filter hr)

/-! ### Tags -/

theorem assigned_eq {p : GroupPool} (ht : t.groups = groupRows p) (hp : p.Valid) :
    t.assigned = p.byId.map fun e => ((e.1 : Int), e.2) := by
  let rows := (List.range' 1 p.size).filterMap fun i => (p.guidOf? i).map (i, ·)
  have hmem : ∀ e, e ∈ rows ↔ e ∈ p.byId := by
    rintro ⟨i, g⟩
    rw [← GroupPool.guidOf?_eq_some hp]
    simp only [rows, List.mem_filterMap, Option.map_eq_some_iff, Prod.mk.injEq]
    constructor
    · rintro ⟨j, -, g', hg', rfl, rfl⟩
      exact hg'
    · intro hg
      obtain ⟨h1, h2⟩ := GroupPool.bounded_of_guidOf? hp hg
      exact ⟨i, List.mem_range'_1.mpr ⟨h1, by omega⟩, g, hg, rfl, rfl⟩
  have hincreasing : OrderedMap.Increasing rows := by
    refine (List.pairwise_lt_range' 1).filterMap _ fun i j hij a ha b hb => ?_
    obtain ⟨g, -, rfl⟩ := Option.map_eq_some_iff.mp ha
    obtain ⟨g', -, rfl⟩ := Option.map_eq_some_iff.mp hb
    exact hij
  have hrows : rows = p.byId := hincreasing.eq_of_mem_iff hp.increasing hmem
  rw [← hrows, assigned, ht, groupRows, List.filterMap_map, List.map_filterMap]
  refine List.filterMap_congr fun i _ => ?_
  rw [Function.comp_apply]
  cases p.guidOf? i <;> rfl

theorem Mirrors.mapM_assigned (h : t.Mirrors s) (hg : s.groups.Valid) :
    t.assigned.mapM (storedTag s.tagLength) = .ok s.tags := by
  rw [assigned_eq h.groups hg, List.mapM_map]
  refine mapM_eq_ok fun e _ => ?_
  simp only [Function.comp_apply, storedTag, storedGroup_natCast]
  rfl

end Tables
end NetworkPolicy.Database
