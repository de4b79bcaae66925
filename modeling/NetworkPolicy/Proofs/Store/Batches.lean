import NetworkPolicy.Proofs.Store.Memory

/-! Batches on the store in memory, told by what they do to the policies that it lists: creating puts
the new ones behind the others, deleting takes the named ones away. In the middle of a batch the rows
and the groups do not agree; at its end they do. -/
namespace NetworkPolicy.MemoryStore

variable {s t : MemoryStore} {p : Policy} {ps : List Policy}

/-! ### Creating -/

/-- The row that a policy is stored as when its applications have these groups. -/
def rowOf (source destination : Nat) (p : Policy) : MemoryRow :=
  ⟨source, destination, p.destination.protocol, p.destination.ports⟩

/-- What a step of a batch keeps: the width of tags, the number of groups, and the assignments. -/
structure Extends (s t : MemoryStore) : Prop where
  tagLength : t.tagLength = s.tagLength
  size : t.groups.size = s.groups.size
  guidOf? : ∀ i g, s.groups.guidOf? i = some g → t.groups.guidOf? i = some g

theorem Extends.refl (s : MemoryStore) : s.Extends s := ⟨rfl, rfl, fun _ _ h => h⟩

theorem Extends.trans {u : MemoryStore} (h : s.Extends t) (h' : t.Extends u) : s.Extends u :=
  ⟨h'.tagLength.trans h.tagLength, h'.size.trans h.size,
    fun i g hi => h'.guidOf? i g (h.guidOf? i g hi)⟩

theorem Extends.policyOf_eq (h : s.Extends t) (hs : s.Named) {r : MemoryRow} (hr : r ∈ s.rows) :
    t.policyOf r = s.policyOf r := by
  obtain ⟨a, b, ha, hb⟩ := hs r hr
  simp only [policyOf, ha, hb, h.guidOf? _ _ ha, h.guidOf? _ _ hb, h.tagLength]

/-- One creation: both applications get groups, and the row is there afterwards. -/
theorem createOne_ok (h : s.createOne p = .ok t) :
    ∃ i j q, s.groups.claim p.source.id = .ok (i, q) ∧
      q.claim p.destination.id = .ok (j, t.groups) ∧ t.tagLength = s.tagLength ∧
      t.rows = if s.rows.contains (rowOf i j p) then s.rows else s.rows ++ [rowOf i j p] := by
  unfold createOne at h
  cases hi : s.groups.claim p.source.id with
  | error e => simp [hi, bind, Except.bind] at h
  | ok a =>
    cases hj : a.2.claim p.destination.id with
    | error e => simp [hi, hj, bind, Except.bind] at h
    | ok b =>
      simp only [hi, hj, bind, Except.bind, pure, Except.pure, Except.ok.injEq] at h
      subst h
      exact ⟨a.1, b.1, a.2, rfl, hj, rfl, rfl⟩

theorem mem_rows_createOne {r row : MemoryRow} {rows : List MemoryRow} :
    (r ∈ if rows.contains row then rows else rows ++ [row]) ↔ r ∈ rows ∨ r = row := by
  split_ifs with h
  · have hmem : row ∈ rows := List.contains_iff_mem.mp h
    exact ⟨Or.inl, fun hr => hr.elim (fun hr => hr) fun hr => hr ▸ hmem⟩
  · rw [List.mem_append, List.mem_singleton]

/-- Creating keeps the assignments, and makes the rows name just the assigned groups again. -/
theorem Valid.createOne (hs : s.Valid) (h : s.createOne p = .ok t) : t.Valid ∧ s.Extends t := by
  obtain ⟨i, j, q, hi, hj, htag, hrows⟩ := createOne_ok h
  have hq := GroupPool.claimed_of_claim hs.groups hi
  have ht := GroupPool.claimed_of_claim hq.valid hj
  refine ⟨⟨ht.valid, ?_, fun id => ?_⟩, htag, ht.size.trans hq.size, fun _ _ hk =>
    ht.keeps hq.valid (hq.keeps hs.groups hk)⟩
  · rw [hrows]
    split_ifs with hc
    · exact hs.rows
    · refine List.nodup_append.mpr ⟨hs.rows, List.nodup_singleton _, fun a ha b hb hab => hc ?_⟩
      rw [List.contains_iff_mem, ← List.mem_singleton.mp hb, ← hab]
      exact ha
  · have hassigned : (t.groups.guidOf? id).isSome ↔
        (s.groups.guidOf? id).isSome ∨ id = i ∨ id = j := by
      simp only [GroupPool.guidOf?_isSome ht.valid, GroupPool.guidOf?_isSome hs.groups, ht.mem_iff,
        hq.mem_iff, Prod.mk.injEq, exists_or, exists_and_left, exists_eq, and_true, or_assoc]
    rw [hassigned, hs.assigned_iff, references_eq_true, references_eq_true, hrows]
    simp only [mem_rows_createOne]
    constructor
    · rintro (⟨r, hr, hri⟩ | rfl | rfl)
      · exact ⟨r, Or.inl hr, hri⟩
      · exact ⟨_, Or.inr rfl, Or.inl rfl⟩
      · exact ⟨_, Or.inr rfl, Or.inr rfl⟩
    · rintro ⟨r, hr | rfl, hri⟩
      · exact Or.inl ⟨r, hr, hri⟩
      · exact Or.inr (hri.imp Eq.symm Eq.symm)

/-- The keys with that of a policy behind them, unless it is among them. -/
def addKey (ks : List Policy.Key) (p : Policy) : List Policy.Key :=
  if p.key ∈ ks then ks else ks ++ [p.key]

theorem mem_foldl_addKey {k : Policy.Key} {ks : List Policy.Key} :
    k ∈ ps.foldl addKey ks ↔ k ∈ ks ∨ ∃ p ∈ ps, p.key = k := by
  induction ps generalizing ks with
  | nil => simp
  | cons p ps ih =>
    rw [List.foldl_cons, ih, addKey]
    simp only [List.mem_cons, exists_eq_or_imp]
    split_ifs with h
    · exact ⟨fun hk => hk.imp_right Or.inr, fun hk => hk.elim Or.inl fun hk => hk.elim
        (fun hk => Or.inl (hk ▸ h)) Or.inr⟩
    · rw [List.mem_append, List.mem_singleton, eq_comm (a := k), or_assoc]

/-- Creating adds a policy behind the others unless its key is stored. -/
theorem Valid.policies_createOne (hs : s.Valid) (h : s.createOne p = .ok t) :
    s.policies <+: t.policies ∧ t.keys = addKey s.keys p := by
  obtain ⟨ht, hext⟩ := hs.createOne h
  obtain ⟨i, j, q, hi, hj, htag, hrows⟩ := createOne_ok h
  have hq := GroupPool.claimed_of_claim hs.groups hi
  have hclaimed := GroupPool.claimed_of_claim hq.valid hj
  have hkey : (t.policyOf (rowOf i j p)).key = p.key := by
    simp only [policyOf, rowOf, Policy.key, hclaimed.guidOf?, hclaimed.keeps hq.valid hq.guidOf?,
      Option.getD_some]
  have hold : s.rows.map t.policyOf = s.policies :=
    List.map_congr_left fun r hr => hext.policyOf_eq hs.named hr
  have hmem : p.key ∈ s.keys ↔ rowOf i j p ∈ s.rows := by
    rw [keys, ← hold, List.map_map, ← hkey]
    constructor
    · intro hk
      obtain ⟨r, hr, hrk⟩ := List.mem_map.mp hk
      have hr' : r ∈ t.rows := hrows ▸ mem_rows_createOne.mpr (Or.inl hr)
      have hrow' : rowOf i j p ∈ t.rows := hrows ▸ mem_rows_createOne.mpr (Or.inr rfl)
      exact policyOf_key_inj ht.groups ht.named hr' hrow' hrk ▸ hr
    · exact fun hr => List.mem_map_of_mem hr
  have hnew : t.policies =
      (if s.rows.contains (rowOf i j p) then s.rows else s.rows ++ [rowOf i j p]).map t.policyOf := by
    rw [policies, hrows]
  rw [hnew, addKey, keys, hnew]
  by_cases hc : rowOf i j p ∈ s.rows
  · rw [if_pos (List.contains_iff_mem.mpr hc), hold, if_pos (hmem.mpr hc)]
    exact ⟨List.prefix_rfl, rfl⟩
  · rw [if_neg (by rwa [List.contains_iff_mem]), List.map_append, hold, if_neg (mt hmem.mp hc),
      List.map_append, List.map_singleton, List.map_singleton, hkey]
    exact ⟨List.prefix_append _ _, rfl⟩

/-- What a batch of creations keeps, and the keys that are stored after it. -/
theorem Valid.createAll (hs : s.Valid) (h : ps.foldlM MemoryStore.createOne s = .ok t) :
    t.Valid ∧ s.Extends t ∧ s.policies <+: t.policies ∧ t.keys = ps.foldl addKey s.keys := by
  induction ps generalizing s with
  | nil =>
    cases h
    exact ⟨hs, .refl _, List.prefix_rfl, rfl⟩
  | cons p ps ih =>
    rw [List.foldlM_cons] at h
    cases h1 : s.createOne p with
    | error e => simp [h1, bind, Except.bind] at h
    | ok u =>
      simp only [h1, bind, Except.bind] at h
      obtain ⟨hu, hsu⟩ := hs.createOne h1
      obtain ⟨hkept, hkeys⟩ := hs.policies_createOne h1
      obtain ⟨ht, hut, hkept', hkeys'⟩ := ih hu h
      exact ⟨ht, hsu.trans hut, hkept.trans hkept', by rw [hkeys', hkeys, List.foldl_cons]⟩

theorem createOne_error {e : StoreError} (h : s.createOne p = .error e) :
    s.groups.claim p.source.id = .error e ∨
      ∃ i q, s.groups.claim p.source.id = .ok (i, q) ∧ q.claim p.destination.id = .error e := by
  unfold MemoryStore.createOne at h
  cases hi : s.groups.claim p.source.id with
  | error e' =>
    simp only [hi, bind, Except.bind, Except.error.injEq] at h
    exact Or.inl (congrArg _ h)
  | ok a =>
    cases hj : a.2.claim p.destination.id with
    | error e' =>
      simp only [hi, hj, bind, Except.bind, Except.error.injEq] at h
      exact Or.inr ⟨a.1, a.2, rfl, hj.trans (congrArg _ h)⟩
    | ok b => simp [hi, hj, bind, Except.bind, pure, Except.pure] at h

theorem createAll_error {e : StoreError} (h : ps.foldlM MemoryStore.createOne s = .error e) :
    e = .capacity "group pool exhausted" := by
  induction ps generalizing s with
  | nil => cases h
  | cons p ps ih =>
    rw [List.foldlM_cons] at h
    cases h1 : s.createOne p with
    | ok u =>
      simp only [h1, bind, Except.bind] at h
      exact ih h
    | error e' =>
      simp only [h1, bind, Except.bind, Except.error.injEq] at h
      subst h
      rcases createOne_error h1 with hi | ⟨i, q, -, hj⟩
      · exact (GroupPool.claim_eq_error hi).2.2
      · exact (GroupPool.claim_eq_error hj).2.2

/-! ### Deleting -/

/-- The rows that the deletion of one policy leaves. -/
def withoutRow (s : MemoryStore) (p : Policy) : MemoryStore :=
  { s with rows := s.rows.filter fun r => (s.policyOf r).key != p.key }

/-- The rows that a batch of deletions leaves; no group is freed yet. -/
def withoutRows (s : MemoryStore) (ps : List Policy) : MemoryStore :=
  { s with rows := s.rows.filter fun r => !(ps.map Policy.key).contains (s.policyOf r).key }

theorem withoutRows_nil (s : MemoryStore) : s.withoutRows [] = s := by
  simp [withoutRows]

theorem withoutRows_cons (s : MemoryStore) (p : Policy) (ps : List Policy) :
    s.withoutRows (p :: ps) = (s.withoutRow p).withoutRows ps := by
  simp only [withoutRows, withoutRow, List.filter_filter, mk.injEq, true_and]
  refine List.filter_congr fun r _ => ?_
  rw [List.map_cons, List.contains_cons, Bool.not_or, Bool.and_comm, bne]
  rfl

theorem Named.withoutRow (hs : s.Named) (p : Policy) : (s.withoutRow p).Named :=
  fun r hr => hs r (List.mem_of_mem_filter hr)

/-- Both groups of every row that the deletion of a batch removes are among the given ones. -/
def Touched (s : MemoryStore) (ps : List Policy) (touched : Nat → Prop) : Prop :=
  ∀ r ∈ s.rows, (s.policyOf r).key ∈ ps.map Policy.key → touched r.source ∧ touched r.destination

theorem Touched.cons {first rest : Nat → Prop}
    (hp : ∀ r ∈ s.rows, (s.policyOf r).key = p.key → first r.source ∧ first r.destination)
    (hps : (s.withoutRow p).Touched ps rest) :
    s.Touched (p :: ps) fun i => first i ∨ rest i := by
  intro r hr h
  by_cases hk : (s.policyOf r).key = p.key
  · exact (hp r hr hk).imp Or.inl Or.inl
  · have hr' : r ∈ (s.withoutRow p).rows := List.mem_filter.mpr ⟨hr, bne_iff_ne.mpr hk⟩
    exact (hps r hr' ((List.mem_cons.mp h).resolve_left hk)).imp Or.inr Or.inr

/-- The rows with a policy's key are those that its groups and its destination make up. -/
theorem key_eq_iff (hg : s.groups.Valid) (hs : s.Named) {r : MemoryRow} (hr : r ∈ s.rows) :
    (s.policyOf r).key = p.key ↔ s.groups.idOf? p.source.id = some r.source ∧
      s.groups.idOf? p.destination.id = some r.destination ∧
      rowOf r.source r.destination p = r := by
  obtain ⟨a, b, ha, hb⟩ := hs r hr
  rcases r with ⟨source, destination, protocol, ports⟩
  simp only [← GroupPool.guidOf?_eq_some_iff_idOf? hg, policyOf, Policy.key, ha, hb,
    Option.getD_some, Option.some.injEq, Policy.Key.mk.injEq, rowOf, MemoryRow.mk.injEq, true_and,
    eq_comm]

/-- Nothing is deleted when an application of the policy has no group. -/
theorem withoutRow_eq_self (h : ∀ r ∈ s.rows, (s.policyOf r).key ≠ p.key) : s.withoutRow p = s := by
  rw [withoutRow, List.filter_eq_self.mpr fun r hr => bne_iff_ne.mpr (h r hr)]

theorem withoutRow_eq (hg : s.groups.Valid) (hs : s.Named) {i j : Nat}
    (hi : s.groups.idOf? p.source.id = some i) (hj : s.groups.idOf? p.destination.id = some j) :
    s.withoutRow p = { s with rows := s.rows.filter (· != rowOf i j p) } := by
  simp only [withoutRow, mk.injEq, true_and]
  refine List.filter_congr fun r hr => ?_
  rw [Bool.eq_iff_iff, bne_iff_ne, bne_iff_ne, ne_eq, ne_eq, key_eq_iff hg hs hr, hi, hj]
  simp only [Option.some.injEq]
  refine not_congr ⟨?_, ?_⟩
  · rintro ⟨rfl, rfl, h⟩
    exact h.symm
  · rintro rfl
    exact ⟨rfl, rfl, rfl⟩

/-- One deletion takes away the rows with the policy's key and touches their groups. -/
theorem deleteOne_spec (hg : s.groups.Valid) (hs : s.Named) (p : Policy) :
    (s.deleteOne p).1 = s.withoutRow p ∧
      ∀ r ∈ s.rows, (s.policyOf r).key = p.key →
        r.source ∈ (s.deleteOne p).2 ∧ r.destination ∈ (s.deleteOne p).2 := by
  unfold deleteOne
  cases hi : s.groups.idOf? p.source.id with
  | none =>
    have hno : ∀ r ∈ s.rows, (s.policyOf r).key ≠ p.key := fun r hr h =>
      Option.some_ne_none _ (hi ▸ ((key_eq_iff hg hs hr).mp h).1).symm
    exact ⟨(withoutRow_eq_self hno).symm, fun r hr h => absurd h (hno r hr)⟩
  | some i =>
    cases hj : s.groups.idOf? p.destination.id with
    | none =>
      have hno : ∀ r ∈ s.rows, (s.policyOf r).key ≠ p.key := fun r hr h =>
        Option.some_ne_none _ (hj ▸ ((key_eq_iff hg hs hr).mp h).2.1).symm
      exact ⟨(withoutRow_eq_self hno).symm, fun r hr h => absurd h (hno r hr)⟩
    | some j =>
      refine ⟨(withoutRow_eq hg hs hi hj).symm, fun r hr h => ?_⟩
      obtain ⟨hri, hrj, -⟩ := (key_eq_iff hg hs hr).mp h
      simp only [hi, hj, Option.some.injEq] at hri hrj
      simp [hri, hrj]

/-- The deletions of a batch take away the rows with a key of the batch and touch their groups. -/
theorem deleteRows_spec (hg : s.groups.Valid) (hs : s.Named) (ps : List Policy) :
    (s.deleteRows ps).1 = s.withoutRows ps ∧ s.Touched ps (· ∈ (s.deleteRows ps).2) := by
  induction ps generalizing s with
  | nil => exact ⟨s.withoutRows_nil.symm, fun _ _ h => absurd h List.not_mem_nil⟩
  | cons p ps ih =>
    obtain ⟨hrow, htouched⟩ := deleteOne_spec hg hs p
    obtain ⟨hrest, htouched'⟩ := ih (s := s.withoutRow p) hg (hs.withoutRow p)
    rcases hu : s.deleteOne p with ⟨u, ids⟩
    simp only [hu] at hrow htouched
    subst hrow
    simp only [deleteRows, hu, List.mem_append]
    exact ⟨hrest.trans (s.withoutRows_cons p ps).symm, .cons htouched htouched'⟩

/-- The store without the policies of a batch, and with those groups only that are still named. -/
def without (s : MemoryStore) (ps : List Policy) : MemoryStore :=
  { s.withoutRows ps with groups := s.groups.restrict (s.withoutRows ps).references }

/-- Freeing the touched groups that no row names frees all that no row names. -/
theorem Valid.restrict_eq (hs : s.Valid) {touched : Nat → Bool}
    (h : s.Touched ps (touched · = true)) :
    (s.groups.restrict fun id => (s.withoutRows ps).references id || !touched id) =
      (s.without ps).groups := by
  refine hs.groups.restrict_congr fun id hsome => ?_
  obtain ⟨r, hr, hri⟩ := references_eq_true.mp ((hs.assigned_iff id).mp hsome)
  by_cases hk : (s.policyOf r).key ∈ ps.map Policy.key
  · have htouched : touched id = true := by
      rcases hri with hri | hri
      · exact hri ▸ (h r hr hk).1
      · exact hri ▸ (h r hr hk).2
    rw [htouched, Bool.not_true, Bool.or_false]
  · have href : (s.withoutRows ps).references id = true :=
      references_eq_true.mpr ⟨r, List.mem_filter.mpr ⟨hr, by simpa using hk⟩, hri⟩
    rw [href, Bool.true_or]

theorem Valid.delete_eq (hs : s.Valid) (ps : List Policy) (limit : Option TimeLimit) :
    s.delete ps limit = s.commit limit (.ok (s.without ps)) := by
  obtain ⟨hrows, htouched⟩ := deleteRows_spec hs.groups hs.named ps
  have hsweep : (s.deleteRows ps).1.releaseUnused (s.deleteRows ps).2 = s.without ps := by
    have hgroups := @Valid.restrict_eq s ps hs (s.deleteRows ps).2.contains fun r hr hk => by
      simpa only [List.contains_iff_mem] using htouched r hr hk
    have hkept : (s.withoutRows ps).groups.Valid := hs.groups
    rw [hrows, releaseUnused, hkept.foldl_release]
    exact congrArg (fun g => { s.withoutRows ps with groups := g }) hgroups
  exact congrArg (fun t => s.commit limit (.ok t)) hsweep

theorem guidOf?_without (hs : s.Valid) {id : Nat} {r : MemoryRow} (hr : r ∈ (s.withoutRows ps).rows)
    (h : r.source = id ∨ r.destination = id) :
    (s.without ps).groups.guidOf? id = s.groups.guidOf? id := by
  rw [without, GroupPool.guidOf?_restrict hs.groups, if_pos]
  exact references_eq_true.mpr ⟨r, hr, h⟩

theorem Valid.without (hs : s.Valid) (ps : List Policy) : (s.without ps).Valid where
  groups := hs.groups.restrict _
  rows := hs.rows.filter _
  assigned_iff := by
    intro id
    constructor
    · intro h
      rw [MemoryStore.without, GroupPool.guidOf?_restrict hs.groups] at h
      split_ifs at h with href
      · exact href
      · exact absurd h (by simp)
    · intro h
      obtain ⟨r, hr, hri⟩ := references_eq_true.mp h
      rw [guidOf?_without hs hr hri, hs.assigned_iff]
      exact references_eq_true.mpr ⟨r, List.mem_of_mem_filter hr, hri⟩

/-- Only the keys of a batch count, not their order or how often one occurs. -/
theorem without_congr {qs : List Policy}
    (h : ∀ k, k ∈ ps.map Policy.key ↔ k ∈ qs.map Policy.key) :
    s.without ps = s.without qs := by
  have hkeep : ∀ r, (!(ps.map Policy.key).contains (s.policyOf r).key) =
      !(qs.map Policy.key).contains (s.policyOf r).key := by
    intro r
    rw [Bool.eq_iff_iff, Bool.not_eq_true', Bool.not_eq_true', ← Bool.not_eq_true,
      ← Bool.not_eq_true, List.contains_iff_mem, List.contains_iff_mem, h]
  have hrows : s.withoutRows ps = s.withoutRows qs := by
    simp only [withoutRows, hkeep]
  rw [without, without, hrows]

theorem Valid.without_nil (hs : s.Valid) : s.without [] = s := by
  have hgroups : s.groups.restrict s.references = s.groups :=
    hs.groups.restrict_eq_self fun id => (hs.assigned_iff id).mp
  rw [MemoryStore.without, withoutRows_nil, hgroups]

theorem Valid.policies_without (hs : s.Valid) (ps : List Policy) :
    (s.without ps).policies = s.policies.filter fun p => !(ps.map Policy.key).contains p.key := by
  rw [policies, policies, List.filter_map]
  refine List.map_congr_left fun r hr => ?_
  simp only [policyOf, guidOf?_without hs hr (Or.inl rfl), guidOf?_without hs hr (Or.inr rfl)]
  rfl

theorem Valid.policies_without_filter (hs : s.Valid) (f : Policy → Bool) :
    (s.without (s.policies.filter f)).policies = s.policies.filter (!f ·) := by
  rw [hs.policies_without]
  refine List.filter_congr fun p hp => congrArg (! ·) ?_
  rw [Bool.eq_iff_iff, List.contains_iff_mem, List.mem_map]
  constructor
  · rintro ⟨q, hq, hkey⟩
    obtain ⟨hq, hf⟩ := List.mem_filter.mp hq
    exact List.inj_on_of_nodup_map hs.keys_nodup hq hp hkey ▸ hf
  · exact fun hf => ⟨p, List.mem_filter.mpr ⟨hp, hf⟩, rfl⟩

end NetworkPolicy.MemoryStore
