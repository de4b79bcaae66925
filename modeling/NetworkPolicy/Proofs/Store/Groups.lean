import NetworkPolicy.Proofs.OrderedMap
import NetworkPolicy.Store.Memory

/-! The group pool: both maps hold the same assignments, which are one to one and stay within the
pool, and a new application gets the lowest free group. -/
namespace NetworkPolicy.GroupPool

/-- Each map is in order, and the one is the inverse of the other; groups lie in `1` to `size`. -/
structure Valid (p : GroupPool) : Prop where
  increasing : p.byId.Increasing
  sorted : p.byGuid.Increasing
  inverse : ∀ id guid, (guid, id) ∈ p.byGuid ↔ (id, guid) ∈ p.byId
  bounded : ∀ e ∈ p.byId, 1 ≤ e.1 ∧ e.1 ≤ p.size

variable {p q : GroupPool} {id : Nat} {guid : String}

theorem valid_empty (size : Nat) : Valid { size } where
  increasing := .nil
  sorted := .nil
  inverse := fun _ _ => iff_of_false List.not_mem_nil List.not_mem_nil
  bounded := fun _ he => absurd he List.not_mem_nil

theorem guidOf?_eq_some (hp : p.Valid) : p.guidOf? id = some guid ↔ (id, guid) ∈ p.byId :=
  OrderedMap.get?_eq_some hp.increasing

theorem idOf?_eq_some (hp : p.Valid) : p.idOf? guid = some id ↔ (id, guid) ∈ p.byId :=
  (OrderedMap.get?_eq_some hp.sorted).trans (hp.inverse id guid)

theorem guidOf?_eq_some_iff_idOf? (hp : p.Valid) :
    p.guidOf? id = some guid ↔ p.idOf? guid = some id := by
  rw [guidOf?_eq_some hp, idOf?_eq_some hp]

theorem guidOf?_isSome (hp : p.Valid) : (p.guidOf? id).isSome ↔ ∃ g, (id, g) ∈ p.byId := by
  simp only [Option.isSome_iff_exists, guidOf?_eq_some hp]

theorem guidOf?_eq_none (hp : p.Valid) : p.guidOf? id = none ↔ ∀ g, (id, g) ∉ p.byId := by
  simp only [Option.eq_none_iff_forall_ne_some, ne_eq, guidOf?_eq_some hp]

theorem idOf?_eq_none (hp : p.Valid) : p.idOf? guid = none ↔ ∀ i, (i, guid) ∉ p.byId := by
  simp only [Option.eq_none_iff_forall_ne_some, ne_eq, idOf?_eq_some hp]

theorem bounded_of_guidOf? (hp : p.Valid) (h : p.guidOf? id = some guid) :
    1 ≤ id ∧ id ≤ p.size :=
  hp.bounded _ ((guidOf?_eq_some hp).mp h)

/-- Two assignments with the same group or the same application are one. -/
theorem Valid.fst_eq_iff (hp : p.Valid) {e e' : Nat × String} (he : e ∈ p.byId)
    (he' : e' ∈ p.byId) : e.1 = e'.1 ↔ e.2 = e'.2 := by
  have hguid := (guidOf?_eq_some hp).mpr he
  have hguid' := (guidOf?_eq_some hp).mpr he'
  constructor
  · intro h
    rw [h, hguid'] at hguid
    exact (Option.some.inj hguid).symm
  · intro h
    rw [guidOf?_eq_some_iff_idOf? hp] at hguid hguid'
    rw [h, hguid'] at hguid
    exact (Option.some.inj hguid).symm

/-- No application has two groups. -/
theorem Valid.distinct (hp : p.Valid) : (p.byId.map (·.2)).Nodup :=
  hp.increasing.nodup.map_on fun _ he _ he' h => Prod.ext ((hp.fst_eq_iff he he').mpr h) h

/-- Pools of one size with the same assignments are the same. -/
theorem Valid.eq_of_mem_iff (hp : p.Valid) (hq : q.Valid) (hsize : p.size = q.size)
    (h : ∀ e, e ∈ p.byId ↔ e ∈ q.byId) : p = q := by
  have hbyId : p.byId = q.byId := hp.increasing.eq_of_mem_iff hq.increasing h
  have hbyGuid : p.byGuid = q.byGuid := by
    refine hp.sorted.eq_of_mem_iff hq.sorted fun e => ?_
    rw [hp.inverse, hq.inverse, h]
  exact GroupPool.ext hsize hbyId hbyGuid

/-! ### The lowest free group -/

theorem firstFree?_eq (p : GroupPool) (id count : Nat) :
    p.firstFree? id count = (List.range' id count).find? fun i => (p.guidOf? i).isNone := by
  induction count generalizing id with
  | zero => rfl
  | succ count ih =>
    rw [firstFree?, ih, List.range'_succ, List.find?_cons]
    cases (p.guidOf? id).isNone <;> rfl

theorem lowestFree?_eq (p : GroupPool) :
    p.lowestFree? = (List.range' 1 p.size).find? fun i => (p.guidOf? i).isNone :=
  p.firstFree?_eq 1 p.size

theorem lowestFree?_eq_some : p.lowestFree? = some id ↔
    p.guidOf? id = none ∧ (1 ≤ id ∧ id ≤ p.size) ∧
      ∀ j, 1 ≤ j → j < id → (p.guidOf? j).isSome := by
  have hrange : id ∈ List.range' 1 p.size ↔ 1 ≤ id ∧ id ≤ p.size := by
    rw [List.mem_range'_1]
    omega
  simp only [lowestFree?_eq, List.find?_range'_eq_some, hrange, Option.isNone_iff_eq_none,
    Option.not_isNone]

theorem lowestFree?_eq_none : p.lowestFree? = none ↔
    ∀ i, 1 ≤ i → i ≤ p.size → (p.guidOf? i).isSome := by
  have hrange : ∀ i, i < 1 + p.size ↔ i ≤ p.size := fun i => by omega
  simp only [lowestFree?_eq, List.find?_range'_eq_none, hrange, Option.isNone_eq_false_iff,
    Bool.not_eq_true']

/-! ### Assigning -/

/-- The pool with one more assignment, in both maps. -/
def assign (p : GroupPool) (id : Nat) (guid : String) : GroupPool :=
  { p with byId := p.byId.insert id guid, byGuid := p.byGuid.insert guid id }

theorem mem_assign (hp : p.Valid) (hfree : p.guidOf? id = none) {e : Nat × String} :
    e ∈ (p.assign id guid).byId ↔ e = (id, guid) ∨ e ∈ p.byId := by
  have hother : e ∈ p.byId → e.1 ≠ id := fun he h => (guidOf?_eq_none hp).mp hfree e.2 (h ▸ he)
  rw [assign, OrderedMap.mem_insert hp.increasing, ← Prod.mk.injEq]
  tauto

theorem assign_perm (hp : p.Valid) (hfree : p.guidOf? id = none) :
    (p.assign id guid).byId.Perm ((id, guid) :: p.byId) :=
  OrderedMap.insert_perm fun e he h => (guidOf?_eq_none hp).mp hfree e.2 (h ▸ he)

/-- The entries of the new assignment are new in both maps. -/
theorem Valid.assign (hp : p.Valid) (hfree : p.guidOf? id = none) (hnew : p.idOf? guid = none)
    (hid : 1 ≤ id ∧ id ≤ p.size) : (p.assign id guid).Valid where
  increasing := hp.increasing.insert
  sorted := hp.sorted.insert
  inverse := by
    intro i g
    have hi : (i, g) ∈ p.byId → i ≠ id := fun he h => (guidOf?_eq_none hp).mp hfree g (h ▸ he)
    have hg : (i, g) ∈ p.byId → g ≠ guid := fun he h => (idOf?_eq_none hp).mp hnew i (h ▸ he)
    rw [GroupPool.assign, OrderedMap.mem_insert hp.sorted, OrderedMap.mem_insert hp.increasing,
      hp.inverse]
    tauto
  bounded := by
    intro e he
    rcases (mem_assign hp hfree).mp he with rfl | he
    · exact hid
    · exact hp.bounded e he

/-- What claiming a group does: nothing for a known application, else it assigns the lowest free
group, or fails because there is none. -/
theorem claim_eq (p : GroupPool) (guid : String) :
    p.claim guid = match p.idOf? guid, p.lowestFree? with
      | some id, _ => .ok (id, p)
      | none, some id => .ok (id, p.assign id guid)
      | none, none => .error (.capacity "group pool exhausted") := by
  unfold claim
  cases p.idOf? guid with
  | some id => rfl
  | none => cases p.lowestFree? <;> rfl

theorem claim_known (h : p.idOf? guid = some id) : p.claim guid = .ok (id, p) := by
  rw [claim_eq, h]

/-- A claim that succeeds found the application known, or assigned the lowest free group. -/
theorem claim_cases (h : p.claim guid = .ok (id, q)) :
    p.idOf? guid = some id ∧ q = p ∨
      p.idOf? guid = none ∧ p.lowestFree? = some id ∧ q = p.assign id guid := by
  rw [claim_eq] at h
  cases hid : p.idOf? guid with
  | some i =>
    simp only [hid, Except.ok.injEq, Prod.mk.injEq] at h
    exact Or.inl ⟨congrArg some h.1, h.2.symm⟩
  | none =>
    cases hlowest : p.lowestFree? with
    | none => simp only [hid, hlowest, reduceCtorEq] at h
    | some i =>
      simp only [hid, hlowest, Except.ok.injEq, Prod.mk.injEq] at h
      obtain ⟨rfl, rfl⟩ := h
      exact Or.inr ⟨rfl, rfl, rfl⟩

theorem claim_eq_error {e : StoreError} (h : p.claim guid = .error e) :
    p.idOf? guid = none ∧ p.lowestFree? = none ∧ e = .capacity "group pool exhausted" := by
  rw [claim_eq] at h
  cases hid : p.idOf? guid with
  | some i => simp [hid] at h
  | none =>
    cases hlowest : p.lowestFree? with
    | some i => simp [hid, hlowest] at h
    | none =>
      simp only [hid, hlowest] at h
      exact ⟨rfl, rfl, (Except.error.inj h).symm⟩

/-- A pool after a claim: valid, with the claimed assignment and all those before. -/
structure Claimed (p : GroupPool) (guid : String) (id : Nat) (q : GroupPool) : Prop where
  valid : q.Valid
  size : q.size = p.size
  mem_iff : ∀ e, e ∈ q.byId ↔ e ∈ p.byId ∨ e = (id, guid)

theorem claimed_of_claim (hp : p.Valid) (h : p.claim guid = .ok (id, q)) :
    p.Claimed guid id q := by
  rcases claim_cases h with ⟨hid, rfl⟩ | ⟨hnew, hlowest, rfl⟩
  · have hmem : (id, guid) ∈ q.byId := (idOf?_eq_some hp).mp hid
    exact ⟨hp, rfl, fun e => ⟨Or.inl, fun he => he.elim (fun he => he) fun he => he ▸ hmem⟩⟩
  · obtain ⟨hfree, hbounds, -⟩ := lowestFree?_eq_some.mp hlowest
    refine ⟨hp.assign hfree hnew hbounds, rfl, fun e => ?_⟩
    rw [mem_assign hp hfree, or_comm]

theorem Claimed.guidOf? (h : p.Claimed guid id q) : q.guidOf? id = some guid :=
  (guidOf?_eq_some h.valid).mpr ((h.mem_iff _).mpr (Or.inr rfl))

theorem Claimed.keeps {i : Nat} {g : String} (hp : p.Valid) (h : p.Claimed guid id q)
    (hi : p.guidOf? i = some g) : q.guidOf? i = some g :=
  (guidOf?_eq_some h.valid).mpr ((h.mem_iff _).mpr (Or.inl ((guidOf?_eq_some hp).mp hi)))

/-! ### Freeing -/

/-- The pool with only those assignments whose group is to be kept. -/
def restrict (p : GroupPool) (keep : Nat → Bool) : GroupPool :=
  { p with
    byId := p.byId.filter fun e => keep e.1
    byGuid := p.byGuid.filter fun e => keep e.2 }

theorem Valid.restrict (hp : p.Valid) (keep : Nat → Bool) : (p.restrict keep).Valid where
  increasing := hp.increasing.filter _
  sorted := hp.sorted.filter _
  inverse := fun i g => by
    rw [GroupPool.restrict, List.mem_filter, List.mem_filter, hp.inverse]
  bounded := fun e he => hp.bounded e (List.mem_of_mem_filter he)

theorem guidOf?_restrict (hp : p.Valid) (keep : Nat → Bool) (id : Nat) :
    (p.restrict keep).guidOf? id = if keep id then p.guidOf? id else none := by
  ext g
  rw [guidOf?_eq_some (hp.restrict keep), GroupPool.restrict, List.mem_filter]
  split_ifs with h
  · rw [guidOf?_eq_some hp]
    exact and_iff_left h
  · exact iff_of_false (fun hm => h hm.2) not_false

theorem restrict_restrict (p : GroupPool) (keep keep' : Nat → Bool) :
    (p.restrict keep).restrict keep' = p.restrict fun id => keep' id && keep id := by
  simp only [restrict, List.filter_filter]

/-- Only the groups that are assigned matter. -/
theorem Valid.restrict_congr (hp : p.Valid) {keep keep' : Nat → Bool}
    (h : ∀ id, (p.guidOf? id).isSome → keep id = keep' id) :
    p.restrict keep = p.restrict keep' := by
  have hbyId : ∀ e ∈ p.byId, keep e.1 = keep' e.1 := fun e he =>
    h e.1 ((guidOf?_isSome hp).mpr ⟨e.2, he⟩)
  have hbyGuid : ∀ e ∈ p.byGuid, keep e.2 = keep' e.2 := fun e he =>
    hbyId _ ((hp.inverse e.2 e.1).mp he)
  rw [GroupPool.restrict, List.filter_congr hbyId, List.filter_congr hbyGuid, GroupPool.restrict]

theorem Valid.restrict_eq_self (hp : p.Valid) {keep : Nat → Bool}
    (h : ∀ id, (p.guidOf? id).isSome → keep id = true) : p.restrict keep = p := by
  have hall : p.restrict keep = p.restrict fun _ => true := hp.restrict_congr h
  rw [hall]
  simp only [GroupPool.restrict, List.filter_true]

/-- Freeing a group takes the two entries of its assignment out, one from each map. -/
theorem Valid.release_eq (hp : p.Valid) (id : Nat) : p.release id = p.restrict (· != id) := by
  unfold release
  cases hguid : p.guidOf? id with
  | none =>
    refine (hp.restrict_eq_self fun i hi => bne_iff_ne.mpr fun h => ?_).symm
    rw [h, hguid] at hi
    exact Bool.false_ne_true hi
  | some guid =>
    have hmem := (guidOf?_eq_some hp).mp hguid
    have hbyGuid : p.byGuid.erase guid = p.byGuid.filter fun e => e.2 != id := by
      refine List.filter_congr fun e he => ?_
      have hsame := hp.fst_eq_iff ((hp.inverse e.2 e.1).mp he) hmem
      rw [Bool.eq_iff_iff, bne_iff_ne, bne_iff_ne, ne_eq, ne_eq, ← hsame]
    dsimp only
    rw [hbyGuid]
    rfl

/-- Freeing one group after the other, those that `used` holds back apart, keeps the rest. -/
theorem Valid.foldl_release (hp : p.Valid) (used : Nat → Bool) (ids : List Nat) :
    ids.foldl (fun g id => if used id then g else g.release id) p =
      p.restrict fun id => used id || !ids.contains id := by
  induction ids generalizing p with
  | nil => exact (hp.restrict_eq_self fun i _ => by simp).symm
  | cons i ids ih =>
    rw [List.foldl_cons]
    cases hu : used i with
    | true =>
      rw [if_pos rfl, ih hp]
      refine hp.restrict_congr fun j _ => ?_
      by_cases hj : j = i <;> simp [hj, hu]
    | false =>
      rw [if_neg Bool.false_ne_true, hp.release_eq, ih (hp.restrict _), restrict_restrict]
      refine hp.restrict_congr fun j _ => ?_
      by_cases hj : j = i <;> simp [hj, hu]

end NetworkPolicy.GroupPool
