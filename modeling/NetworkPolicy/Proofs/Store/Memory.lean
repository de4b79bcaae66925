import NetworkPolicy.Proofs.Policy.Tag
import NetworkPolicy.Proofs.Store.Groups

/-! The store in memory between calls: a group is assigned exactly if a row names it, so that every
row can be read, and the tags are those of the applications that the policies name. -/
namespace NetworkPolicy.MemoryStore

variable {s : MemoryStore}

theorem references_eq_true {id : Nat} :
    s.references id = true ↔ ∃ r ∈ s.rows, r.source = id ∨ r.destination = id := by
  simp [references]

/-- The state between calls: no row occurs twice, and the rows name just the assigned groups. -/
structure Valid (s : MemoryStore) : Prop where
  groups : s.groups.Valid
  rows : s.rows.Nodup
  assigned_iff : ∀ id, (s.groups.guidOf? id).isSome ↔ s.references id = true

theorem valid_empty (l : TagLength) (size : Nat) : (empty l size).Valid where
  groups := GroupPool.valid_empty size
  rows := .nil
  assigned_iff := fun _ => by simp [empty, GroupPool.guidOf?, OrderedMap.get?, references]

/-! ### Reading -/

/-- Both groups of every row are assigned. -/
def Named (s : MemoryStore) : Prop :=
  ∀ r ∈ s.rows, ∃ a b, s.groups.guidOf? r.source = some a ∧ s.groups.guidOf? r.destination = some b

theorem Valid.named (hs : s.Valid) : s.Named := by
  intro r hr
  have ha := (hs.assigned_iff r.source).mpr (references_eq_true.mpr ⟨r, hr, Or.inl rfl⟩)
  have hb := (hs.assigned_iff r.destination).mpr (references_eq_true.mpr ⟨r, hr, Or.inr rfl⟩)
  obtain ⟨a, ha⟩ := Option.isSome_iff_exists.mp ha
  obtain ⟨b, hb⟩ := Option.isSome_iff_exists.mp hb
  exact ⟨a, b, ha, hb⟩

/-- The policy of a row whose groups are assigned. -/
def policyOf (s : MemoryStore) (r : MemoryRow) : Policy :=
  ⟨⟨(s.groups.guidOf? r.source).getD "", s.tagLength.render r.source⟩,
    ⟨(s.groups.guidOf? r.destination).getD "", s.tagLength.render r.destination, r.protocol,
      r.ports⟩⟩

/-- The stored policies in the order of creation. -/
def policies (s : MemoryStore) : List Policy := s.rows.map s.policyOf

/-- What tells the stored policies apart. -/
def keys (s : MemoryStore) : List Policy.Key := s.policies.map Policy.key

theorem resolve_eq_ok (hs : s.Named) {r : MemoryRow} (hr : r ∈ s.rows) :
    s.resolve r = .ok (s.policyOf r) := by
  obtain ⟨a, b, ha, hb⟩ := hs r hr
  simp only [resolve, guidOf, policyOf, ha, hb, Option.getD_some]
  rfl

theorem all_eq (hs : s.Named) : s.all = .ok s.policies :=
  mapM_eq_ok fun _ hr => resolve_eq_ok hs hr

theorem policyOf_key_inj (hg : s.groups.Valid) (hs : s.Named) {r r' : MemoryRow} (hr : r ∈ s.rows)
    (hr' : r' ∈ s.rows) (h : (s.policyOf r).key = (s.policyOf r').key) : r = r' := by
  obtain ⟨a, b, ha, hb⟩ := hs r hr
  obtain ⟨a', b', ha', hb'⟩ := hs r' hr'
  simp only [Policy.key, policyOf, ha, hb, ha', hb', Option.getD_some, Policy.Key.mk.injEq] at h
  obtain ⟨rfl, rfl, hprotocol, hports⟩ := h
  rw [GroupPool.guidOf?_eq_some_iff_idOf? hg] at ha hb ha' hb'
  cases r
  cases r'
  simp_all

theorem Valid.keys_nodup (hs : s.Valid) : s.keys.Nodup := by
  rw [keys, policies, List.map_map]
  exact (List.nodup_map_iff_inj_on hs.rows).mpr fun r hr r' hr' =>
    policyOf_key_inj hs.groups hs.named hr hr'

/-- The rows that a query by groups selects are those whose policies have the named ends. -/
theorem byGuids_eq (hs : s.Valid) (sources destinations : List String) :
    s.byGuids sources destinations = .ok (s.policies.filter fun p =>
      sources.contains p.source.id || destinations.contains p.destination.id) := by
  have hfound : ∀ (names : List String) (i : Nat) (g : String), s.groups.guidOf? i = some g →
      (names.filterMap s.groups.idOf?).contains i = names.contains g := by
    intro names i g hi
    rw [Bool.eq_iff_iff, List.contains_iff_mem, List.contains_iff_mem, List.mem_filterMap]
    have hig := (GroupPool.guidOf?_eq_some_iff_idOf? hs.groups).mp hi
    constructor
    · rintro ⟨g', hg', h⟩
      rw [← GroupPool.guidOf?_eq_some_iff_idOf? hs.groups, hi] at h
      exact Option.some.inj h ▸ hg'
    · exact fun hg => ⟨g, hg, hig⟩
  rw [byGuids, mapM_eq_ok fun r hr => resolve_eq_ok hs.named (List.mem_of_mem_filter hr), policies,
    List.filter_map]
  congr 2
  refine List.filter_congr fun r hr => ?_
  obtain ⟨a, b, ha, hb⟩ := hs.named r hr
  simp only [Function.comp_apply, policyOf, ha, hb, Option.getD_some, hfound _ _ _ ha,
    hfound _ _ _ hb]

theorem Valid.mem_tags_iff (hs : s.Valid) (g : String) :
    g ∈ s.tags.map (·.id) ↔ ∃ p ∈ s.policies, p.source.id = g ∨ p.destination.id = g := by
  constructor
  · intro h
    simp only [tags, List.map_map, List.mem_map, Function.comp_apply] at h
    obtain ⟨⟨i, g'⟩, hmem, rfl⟩ := h
    have hi := (GroupPool.guidOf?_eq_some hs.groups).mpr hmem
    obtain ⟨r, hr, hri⟩ := references_eq_true.mp ((hs.assigned_iff i).mp (by rw [hi]; rfl))
    refine ⟨s.policyOf r, List.mem_map_of_mem hr, ?_⟩
    rcases hri with rfl | rfl
    · exact Or.inl (by simp only [policyOf, hi, Option.getD_some])
    · exact Or.inr (by simp only [policyOf, hi, Option.getD_some])
  · rintro ⟨p, hp, hpg⟩
    obtain ⟨r, hr, rfl⟩ := List.mem_map.mp hp
    obtain ⟨a, b, ha, hb⟩ := hs.named r hr
    simp only [tags, List.map_map, List.mem_map, Function.comp_apply]
    simp only [policyOf, ha, hb, Option.getD_some] at hpg
    rcases hpg with rfl | rfl
    · exact ⟨_, (GroupPool.guidOf?_eq_some hs.groups).mp ha, rfl⟩
    · exact ⟨_, (GroupPool.guidOf?_eq_some hs.groups).mp hb, rfl⟩

/-- The tags that a policy carries are those that the store gives its applications. -/
def CarriesTags (s : MemoryStore) (p : Policy) : Prop :=
  ⟨p.source.id, p.source.tag⟩ ∈ s.tags ∧ ⟨p.destination.id, p.destination.tag⟩ ∈ s.tags

theorem Valid.carriesTags (hs : s.Valid) {p : Policy} (hp : p ∈ s.policies) : s.CarriesTags p := by
  obtain ⟨r, hr, rfl⟩ := List.mem_map.mp hp
  obtain ⟨a, b, ha, hb⟩ := hs.named r hr
  have htag : ∀ {i : Nat} {g : String}, s.groups.guidOf? i = some g →
      ⟨g, s.tagLength.render i⟩ ∈ s.tags := fun hi =>
    List.mem_map.mpr ⟨_, (GroupPool.guidOf?_eq_some hs.groups).mp hi, rfl⟩
  simp only [CarriesTags, policyOf, ha, hb, Option.getD_some]
  exact ⟨htag ha, htag hb⟩

/-- No two tags are the same, and those of the same width are listed in their order. -/
theorem Valid.tags_ordered (hs : s.Valid) : s.tags.Pairwise fun t t' =>
    t.tag ≠ t'.tag ∧ (t.tag.length = t'.tag.length → t.tag < t'.tag) := by
  rw [tags, List.pairwise_map]
  refine hs.groups.increasing.imp fun hlt => ⟨?_, fun hwidth => ?_⟩
  · exact s.tagLength.render_injective.ne (Nat.ne_of_lt hlt)
  · exact (TagLength.render_lt_render_iff hwidth).mpr hlt

end NetworkPolicy.MemoryStore
