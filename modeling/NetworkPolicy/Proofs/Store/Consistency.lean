import NetworkPolicy.Proofs.Store.Realization

/-! Every state that calls can bring a store in memory into is consistent: its groups, its rows, its
tags and its listings tell the same. -/
namespace NetworkPolicy.MemoryStore

variable {s : MemoryStore}

/-- Calls keep a store valid, and its groups as many. -/
theorem valid_answers (l : TagLength) (size : Nat) (rs : List StoreRequest) :
    (store.answers rs (empty l size)).2.Valid ∧
      (store.answers rs (empty l size)).2.groups.size = size := by
  refine PolicyStore.answers_induction (P := fun s : MemoryStore => s.Valid ∧ s.groups.size = size)
    (fun r s h => ?_) rs ⟨valid_empty l size, rfl⟩
  obtain ⟨m, ⟨hm, hvalid⟩, -, hsize⟩ := realizes.answer ⟨rfl, h.1⟩ r
  exact hm ▸ ⟨hvalid, hsize.trans h.2⟩

/-! ### Consistent states -/

/-- What holds of a store with `size` groups and the policies `ps` between calls. -/
structure Consistent (s : MemoryStore) (size : Nat) (ps : List Policy) : Prop where
  /-- Looking up the group of an application and the application of a group are inverse. -/
  inverse : ∀ id guid, s.groups.guidOf? id = some guid ↔ s.groups.idOf? guid = some id
  bounded : ∀ id, (s.groups.guidOf? id).isSome → 1 ≤ id ∧ id ≤ size
  rows : s.rows.Nodup
  /-- A group is assigned exactly if a row names it. -/
  assigned_iff : ∀ id, (s.groups.guidOf? id).isSome ↔
    ∃ r ∈ s.rows, r.source = id ∨ r.destination = id
  /-- No row names a free group. -/
  resolve : ∀ r ∈ s.rows, ∃ p, s.resolve r = .ok p
  all : s.all = .ok ps
  /-- Each application has one tag. -/
  tags_nodup : (s.tags.map (·.id)).Nodup
  /-- The applications with a tag are the ends of the policies. -/
  mem_tags_iff : ∀ guid, guid ∈ s.tags.map (·.id) ↔ ∃ p ∈ ps, guid ∈ p.ends
  /-- Tags are listed by increasing group. -/
  tags_increasing : ∃ ids : List Nat, ids.Pairwise (· < ·) ∧
    s.tags.map (fun t => s.groups.idOf? t.id) = ids.map some
  all_tags : ∀ p ∈ ps, s.CarriesTags p
  /-- A query selects among the policies by their ends, with the same tags. -/
  byGuids : ∀ sources destinations, ∃ qs, s.byGuids sources destinations = .ok qs ∧
    qs = ps.filter (fun p =>
      sources.contains p.source.id || destinations.contains p.destination.id) ∧
    ∀ p ∈ qs, s.CarriesTags p

theorem Valid.tags_increasing (hs : s.Valid) : ∃ ids : List Nat, ids.Pairwise (· < ·) ∧
    s.tags.map (fun t => s.groups.idOf? t.id) = ids.map some := by
  have hids : (s.groups.byId.map (·.1)).Pairwise (· < ·) :=
    List.pairwise_map.mpr hs.groups.increasing
  refine ⟨s.groups.byId.map (·.1), hids, ?_⟩
  rw [tags, List.map_map, List.map_map]
  exact List.map_congr_left fun e he => (GroupPool.idOf?_eq_some hs.groups).mpr he

/-- Whatever calls were made, whether they succeeded, found no free group or ran out of time, the
store is consistent. -/
theorem consistent_answers (l : TagLength) (size : Nat) (rs : List StoreRequest) :
    ∃ ps, (store.answers rs (empty l size)).2.Consistent size ps := by
  obtain ⟨hs, hsize⟩ := valid_answers l size rs
  generalize (store.answers rs (empty l size)).2 = s at hs hsize
  refine ⟨s.policies, ?_⟩
  exact {
    inverse := fun id guid => GroupPool.guidOf?_eq_some_iff_idOf? hs.groups
    bounded := fun id h => by
      obtain ⟨g, hg⟩ := Option.isSome_iff_exists.mp h
      exact hsize ▸ GroupPool.bounded_of_guidOf? hs.groups hg
    rows := hs.rows
    assigned_iff := fun id => (hs.assigned_iff id).trans references_eq_true
    resolve := fun r hr => ⟨_, resolve_eq_ok hs.named hr⟩
    all := all_eq hs.named
    tags_nodup := by
      rw [tags, List.map_map]
      exact hs.groups.distinct
    mem_tags_iff := fun g => (hs.mem_tags_iff g).trans (by
      simp only [Policy.ends, List.mem_cons, List.not_mem_nil, or_false, eq_comm])
    tags_increasing := hs.tags_increasing
    all_tags := fun p hp => hs.carriesTags hp
    byGuids := fun sources destinations => ⟨_, byGuids_eq hs sources destinations, rfl,
      fun p hp => hs.carriesTags (List.mem_of_mem_filter hp)⟩ }

end NetworkPolicy.MemoryStore
