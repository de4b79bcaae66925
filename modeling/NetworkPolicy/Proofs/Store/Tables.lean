import NetworkPolicy.Proofs.Store.Batches
import NetworkPolicy.Proofs.Store.Sessions
import NetworkPolicy.Store.Rows

/-! Tables as a store in memory: which tables hold what such a store holds, and that creating and
deleting policies there does the same. Destinations are rows of their own that policies share; each is
used as long as it exists. -/
namespace NetworkPolicy.Database

/-! ### Batches on tables -/

namespace Tables

variable {ε : Type}

/-- The group of an application; a new one gets the lowest free group. It fails with `full` when there
is none. -/
def claim (full : ε) (guid : String) (t : Tables) : Except ε (Int × Tables) :=
  match t.groupOf? guid, t.freeGroup? with
  | some id, _ => .ok (id, t)
  | none, some id => .ok (id, t.setGroup id (some guid))
  | none, none => .error full

/-- The destination of a policy in a group. -/
def destinationFor? (t : Tables) (group : Int) (d : Destination) : Option Int :=
  t.destinationOf? group d.ports.first.toNat d.ports.last.toNat d.protocol

/-- The destination of a policy in a group, added if there is none. -/
def ensureDestination (t : Tables) (group : Int) (d : Destination) : Int × Tables :=
  match t.destinationFor? group d with
  | some id => (id, t)
  | none => t.addDestination group d.ports.first.toNat d.ports.last.toNat d.protocol

/-- Adds a policy unless it is stored already. -/
def createOne (full : ε) (t : Tables) (p : Policy) : Except ε Tables := do
  let (source, t) ← t.claim full p.source.id
  let (group, t) ← t.claim full p.destination.id
  let (destination, t) := t.ensureDestination group p.destination
  return t.addPolicy source destination

/-- Removes a policy; gives its groups if all its parts are stored. -/
def deleteOne (p : Policy) (t : Tables) : List Int × Tables :=
  match t.groupOf? p.source.id, t.groupOf? p.destination.id with
  | some source, some group =>
    match t.destinationFor? group p.destination with
    | some destination =>
      ([source, group],
        (t.removePolicy source destination).removeUnusedDestination destination)
    | none => ([], t)
  | _, _ => ([], t)

/-- Frees a group that no policy uses. -/
def release (t : Tables) (id : Int) : Tables :=
  if t.references id then t else t.setGroup id none

/-- Removes the policies of a batch, then frees those of their groups that no policy uses. -/
def deleteAll (ps : List Policy) (t : Tables) : Tables :=
  let (touched, t) := Session.mapEffect deleteOne ps t
  (increasing touched.flatten).foldl release t

end Tables

/-! ### Groups -/

/-- The rows of a pool's groups. -/
def groupRows (p : GroupPool) : List GroupRow :=
  (List.range' 1 p.size).map fun id : Nat => ⟨id, p.guidOf? id⟩

namespace Tables

variable {ε : Type} {t : Tables} {p q : GroupPool}

theorem groupOf?_eq (ht : t.groups = groupRows p) (hp : p.Valid) (guid : String) :
    t.groupOf? guid = (p.idOf? guid).map fun i : Nat => (i : Int) := by
  have hfind : (List.range' 1 p.size).find? (fun i => p.guidOf? i == some guid) =
      p.idOf? guid := by
    cases hi : p.idOf? guid with
    | none =>
      refine List.find?_range'_eq_none.mpr fun i _ _ => ?_
      have hne : p.guidOf? i ≠ some guid := fun h =>
        Option.some_ne_none i (hi ▸ ((GroupPool.guidOf?_eq_some_iff_idOf? hp).mp h).symm)
      simpa using hne
    | some i =>
      have hguid := (GroupPool.guidOf?_eq_some_iff_idOf? hp).mpr hi
      obtain ⟨h1, h2⟩ := GroupPool.bounded_of_guidOf? hp hguid
      refine List.find?_range'_eq_some.mpr ⟨by simp [hguid], by simp; omega, fun j _ hj => ?_⟩
      have hne : p.guidOf? j ≠ some guid := fun h => by
        have := hi ▸ (GroupPool.guidOf?_eq_some_iff_idOf? hp).mp h
        exact absurd (Option.some.inj this) (Nat.ne_of_gt hj)
      simpa using hne
  rw [groupOf?, ht, groupRows, List.find?_map, Option.map_map, ← hfind]
  rfl

theorem freeGroup?_eq (ht : t.groups = groupRows p) :
    t.freeGroup? = p.lowestFree?.map fun i : Nat => (i : Int) := by
  rw [freeGroup?, ht, groupRows, List.find?_map, Option.map_map, GroupPool.lowestFree?_eq]
  rfl

theorem setGroup_eq (ht : t.groups = groupRows p) (hsize : q.size = p.size) {id : Int}
    {guid : Option String}
    (h : ∀ i : Nat, q.guidOf? i = if (i : Int) = id then guid else p.guidOf? i) :
    t.setGroup id guid = { t with groups := groupRows q } := by
  rw [setGroup, ht, groupRows, groupRows, hsize, List.map_map]
  congr 1
  refine List.map_congr_left fun i _ => ?_
  rw [h i]
  by_cases hi : (i : Int) = id
  · simp [hi]
  · simp [hi]

theorem setGroup_assign (ht : t.groups = groupRows p) (hp : p.Valid) {id : Nat} {guid : String}
    (hfree : p.guidOf? id = none) (hq : (p.assign id guid).Valid) :
    t.setGroup id (some guid) = { t with groups := groupRows (p.assign id guid) } := by
  refine setGroup_eq (q := p.assign id guid) ht rfl fun i => ?_
  ext g
  rw [GroupPool.guidOf?_eq_some hq, GroupPool.mem_assign hp hfree, Prod.mk.injEq]
  split_ifs with hi
  · obtain rfl : i = id := Int.ofNat_inj.mp hi
    rw [Option.some.injEq, ← GroupPool.guidOf?_eq_some hp, hfree]
    simp [eq_comm]
  · have hi : i ≠ id := fun h => hi (congrArg _ h)
    rw [GroupPool.guidOf?_eq_some hp]
    simp [hi]

theorem claim_eq (ht : t.groups = groupRows p) (hp : p.Valid) (full : ε) (guid : String) :
    t.claim full guid = match p.claim guid with
      | .ok r => .ok ((r.1 : Int), { t with groups := groupRows r.2 })
      | .error _ => .error full := by
  rw [claim, groupOf?_eq ht hp, GroupPool.claim_eq, freeGroup?_eq ht]
  cases hi : p.idOf? guid with
  | some i => simp [← ht]
  | none =>
    cases hlowest : p.lowestFree? with
    | none => rfl
    | some id =>
      obtain ⟨hfree, hbounds, -⟩ := GroupPool.lowestFree?_eq_some.mp hlowest
      have hset := setGroup_assign ht hp hfree (hp.assign hfree hi hbounds)
      simp only [Option.map_none, Option.map_some, hset]

/-- Freeing groups one after the other, those that policies use apart. -/
theorem foldl_release_eq (ht : t.groups = groupRows p) (hp : p.Valid) (ids : List Int) :
    ids.foldl release t = { t with
      groups := groupRows (p.restrict fun i => t.references i || !ids.contains (i : Int)) } := by
  induction ids generalizing t p with
  | nil =>
    have hall : (p.restrict fun i => t.references i || !([] : List Int).contains (i : Int)) = p :=
      hp.restrict_eq_self fun i _ => by simp
    rw [hall, ← ht, List.foldl_nil]
  | cons id ids ih =>
    have hstep : t.release id = { t with
        groups := groupRows (p.restrict fun i => t.references i || !((i : Int) == id)) } := by
      unfold release
      split_ifs with href
      · have hall : (p.restrict fun i => t.references i || !((i : Int) == id)) = p := by
          refine hp.restrict_eq_self fun i _ => ?_
          by_cases hi : (i : Int) = id <;> simp [hi, href]
        rw [hall, ← ht]
      · refine setGroup_eq ht (q := p.restrict _) rfl fun i => ?_
        rw [GroupPool.guidOf?_restrict hp]
        by_cases hi : (i : Int) = id <;> simp [hi, href]
    rw [List.foldl_cons, hstep, ih rfl (hp.restrict _), GroupPool.restrict_restrict]
    congr 3
    funext i
    change ((t.references i || !ids.contains (i : Int)) &&
      (t.references i || !((i : Int) == id))) = _
    rw [List.contains_cons, Bool.not_or, Bool.or_and_distrib_left, Bool.and_comm]

/-! ### Adding groups -/

section Consecutive

variable {f g : Nat → GroupRow}

private theorem eraseReps_consecutive (hf : ∀ i : Nat, (f i).id = i) (k n : Nat) :
    ((List.range' k n).map f).eraseRepsBy (fun a b => a.id == b.id) = (List.range' k n).map f := by
  refine eraseRepsBy_eq_self (List.pairwise_map.mpr ((List.pairwise_lt_range' 1).imp ?_))
  intro a b hab
  rw [hf, hf, beq_eq_false_iff_ne]
  omega

private theorem le_of_mem_consecutive (hf : ∀ i : Nat, (f i).id = i) {k n : Nat} {x : GroupRow}
    (hx : x ∈ (List.range' k n).map f) : (k : Int) ≤ x.id := by
  obtain ⟨i, hi, rfl⟩ := List.mem_map.mp hx
  have := (List.mem_range'_1.mp hi).1
  rw [hf]
  omega

private theorem merge_consecutive_succ (hf : ∀ i : Nat, (f i).id = i) (hg : ∀ i : Nat, (g i).id = i)
    (k m n : Nat) : ((List.range' k (m + 1)).map f).merge ((List.range' k (n + 1)).map g)
      (fun a b => a.id ≤ b.id) = f k :: g k ::
        ((List.range' (k + 1) m).map f).merge ((List.range' (k + 1) n).map g)
          fun a b => a.id ≤ b.id := by
  rw [List.range'_succ, List.range'_succ, List.map_cons, List.map_cons,
    List.cons_merge_cons_pos _ _ _ (by simp [hf, hg])]
  cases m with
  | zero => rw [List.range'_zero, List.map_nil, List.nil_merge, List.nil_merge]
  | succ m =>
    have hlt : ¬ ((k + 1 : Nat) : Int) ≤ k := by omega
    rw [List.range'_succ, List.map_cons, List.cons_merge_cons_neg _ _ _ (by
      simpa only [hf, hg, decide_eq_true_eq] using hlt)]

/-- Rows of consecutive ids merged with other rows of consecutive ids: where both have a row, the
former's is kept. -/
private theorem erase_merge_consecutive (hf : ∀ i : Nat, (f i).id = i)
    (hg : ∀ i : Nat, (g i).id = i) (k m n : Nat) :
    (((List.range' k m).map f).merge ((List.range' k n).map g)
        fun a b => a.id ≤ b.id).eraseRepsBy (fun a b => a.id == b.id) =
      (List.range' k (max m n)).map fun i => if i < k + m then f i else g i := by
  induction m generalizing k n with
  | zero =>
    rw [List.range'_zero, List.map_nil, List.nil_merge, eraseReps_consecutive hg, Nat.zero_max]
    refine List.map_congr_left fun i hi => (if_neg ?_).symm
    have := (List.mem_range'_1.mp hi).1
    omega
  | succ m ih =>
    cases n with
    | zero =>
      rw [List.range'_zero, List.map_nil, List.merge_right, eraseReps_consecutive hf, Nat.max_zero]
      exact List.map_congr_left fun i hi => (if_pos (List.mem_range'_1.mp hi).2).symm
    | succ n =>
      have hlater : ∀ x ∈ ((List.range' (k + 1) m).map f).merge ((List.range' (k + 1) n).map g)
          fun a b => a.id ≤ b.id, ((f k).id == x.id) = false := by
        intro x hx
        have hle : ((k + 1 : Nat) : Int) ≤ x.id := (List.mem_merge.mp hx).elim
          (le_of_mem_consecutive hf) (le_of_mem_consecutive hg)
        rw [beq_eq_false_iff_ne, hf]
        omega
      -- both lists begin with a row of id `k`, of which the former's stays
      rw [merge_consecutive_succ hf hg, eraseRepsBy_cons_cons, if_pos (by simp [hf, hg]),
        eraseRepsBy_cons hlater, ih, Nat.succ_max_succ, List.range'_succ, List.map_cons,
        if_pos (by omega)]
      congr 1
      exact List.map_congr_left fun i _ => by rw [Nat.add_right_comm, Nat.add_assoc]

end Consecutive

/-- Adding groups to the tables is making the pool at least as large. -/
theorem provision_eq (ht : t.groups = groupRows p) (hp : p.Valid) (n : Nat) :
    t.provision n = { t with groups := groupRows { p with size := max p.size n } } := by
  have hwanted : ((List.range n).map fun i : Nat => (i : Int) + 1).map
      (fun id => (⟨id, none⟩ : GroupRow)) = (List.range' 1 n).map fun i : Nat => ⟨i, none⟩ := by
    rw [List.range'_eq_map_range, List.map_map, List.map_map]
    refine List.map_congr_left fun i _ => ?_
    rw [Function.comp_apply, Function.comp_apply, Nat.add_comm, Int.natCast_succ]
  rw [provision, addGroups, hwanted, ht, groupRows,
    erase_merge_consecutive (fun _ => rfl) fun _ => rfl]
  congr 1
  refine List.map_congr_left fun i _ => ?_
  split_ifs with hi
  · rfl
  · change _ = (⟨i, p.guidOf? i⟩ : GroupRow)
    cases hg : p.guidOf? i with
    | none => rfl
    | some g =>
      have := (GroupPool.bounded_of_guidOf? hp hg).2
      omega

end Tables
end NetworkPolicy.Database
