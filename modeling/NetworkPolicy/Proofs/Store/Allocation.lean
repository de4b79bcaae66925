import Mathlib.Data.Finset.Dedup
import Mathlib.Data.Finset.Card
import Mathlib.Data.List.Sort
import NetworkPolicy.Proofs.Store.Atomicity

/-! What creating a batch does, exactly: when there are groups for it, which policies it adds, and
which groups the new applications get. -/
namespace NetworkPolicy

/-- Of those elements that are not in a list, each once: the first comes first, and the others are not
in the list with it either. -/
theorem eraseDups_unseen_cons {α : Type} [BEq α] [LawfulBEq α] {seen seen' : List α} {a : α}
    (ha : a ∉ seen) (hseen : ∀ b, b ∈ seen' ↔ b = a ∨ b ∈ seen) (l : List α) :
    ((a :: l).filter fun b => !seen.contains b).eraseDups =
      a :: (l.filter fun b => !seen'.contains b).eraseDups := by
  rw [List.filter_cons_of_pos (by simpa using ha), List.eraseDups_cons, List.filter_filter]
  congr 2
  refine List.filter_congr fun b _ => ?_
  rw [Bool.eq_iff_iff, Bool.and_eq_true, Bool.not_eq_true', Bool.not_eq_true', Bool.not_eq_true',
    beq_eq_false_iff_ne, ← Bool.not_eq_true, ← Bool.not_eq_true, List.contains_iff_mem,
    List.contains_iff_mem, hseen, not_or]

/-! ### Claiming groups in turn -/

namespace GroupPool

variable {p q : GroupPool} {g : String} {gs : List String}

/-- The groups that are not assigned, by increasing id. -/
def free (p : GroupPool) : List Nat :=
  (List.range' 1 p.size).filter fun id => !(p.byId.map (·.1)).contains id

/-- Those of the applications that have no group, each once, in the order in which they appear. -/
def newcomers (p : GroupPool) (gs : List String) : List String :=
  (gs.filter fun g => !(p.byId.map (·.2)).contains g).eraseDups

/-- The pool after claiming groups for applications one after the other. -/
def claimAll (p : GroupPool) (gs : List String) : Except StoreError GroupPool :=
  gs.foldlM (fun p g => (p.claim g).map (·.2)) p

theorem idOf?_isSome (hp : p.Valid) : (p.idOf? g).isSome ↔ g ∈ p.byId.map (·.2) := by
  simp only [Option.isSome_iff_exists, idOf?_eq_some hp, List.mem_map, Prod.exists,
    exists_eq_right]

theorem newcomers_cons_known (h : g ∈ p.byId.map (·.2)) :
    p.newcomers (g :: gs) = p.newcomers gs := by
  unfold newcomers
  rw [List.filter_cons_of_neg]
  simpa using h

theorem map_snd_assign (hp : p.Valid) {id : Nat} (hfree : p.guidOf? id = none) (g : String) :
    ((p.assign id g).byId.map (·.2)).Perm (g :: p.byId.map (·.2)) :=
  (assign_perm hp hfree).map (·.2)

/-- A newcomer comes first, and is known to the rest. -/
theorem newcomers_cons_new (hp : p.Valid) {id : Nat} (hfree : p.guidOf? id = none)
    (h : g ∉ p.byId.map (·.2)) :
    p.newcomers (g :: gs) = g :: (p.assign id g).newcomers gs := by
  refine eraseDups_unseen_cons h (fun g' => ?_) gs
  rw [(map_snd_assign hp hfree g).mem_iff, List.mem_cons]

theorem mem_free (hp : p.Valid) {id : Nat} :
    id ∈ p.free ↔ 1 ≤ id ∧ id ≤ p.size ∧ p.guidOf? id = none := by
  have hnone : (p.byId.map (·.1)).contains id = false ↔ p.guidOf? id = none := by
    rw [← Option.not_isSome_iff_eq_none, guidOf?_isSome hp]
    simp
  unfold free
  rw [List.mem_filter, List.mem_range'_1, Bool.not_eq_true', hnone]
  constructor
  · rintro ⟨⟨h1, h2⟩, h⟩
    exact ⟨h1, by omega, h⟩
  · rintro ⟨h1, h2, h⟩
    exact ⟨⟨h1, by omega⟩, h⟩

theorem free_increasing (p : GroupPool) : p.free.Pairwise (· < ·) :=
  (List.pairwise_lt_range' 1).filter _

theorem guidOf?_assign_eq_none (hp : p.Valid) {id i : Nat} (hfree : p.guidOf? id = none)
    (hq : (p.assign id g).Valid) :
    (p.assign id g).guidOf? i = none ↔ i ≠ id ∧ p.guidOf? i = none := by
  rw [guidOf?_eq_none hq, guidOf?_eq_none hp]
  simp only [mem_assign hp hfree, Prod.mk.injEq, not_or, not_and, forall_and]
  exact and_congr_left fun _ => ⟨fun h hi => h g hi rfl, fun h _ hi => absurd hi h⟩

/-- The lowest free group is the first of the free ones, and the others stay free without it. -/
theorem free_eq_cons (hp : p.Valid) {id : Nat} (h : p.lowestFree? = some id)
    (hq : (p.assign id g).Valid) : p.free = id :: (p.assign id g).free := by
  obtain ⟨hfree, ⟨h1, hsize⟩, hlow⟩ := lowestFree?_eq_some.mp h
  have hmem : ∀ i, i ∈ (p.assign id g).free ↔ i ≠ id ∧ i ∈ p.free := by
    intro i
    rw [mem_free hq, mem_free hp, guidOf?_assign_eq_none hp hfree hq]
    change 1 ≤ i ∧ i ≤ p.size ∧ _ ↔ _
    tauto
  have hlowest : id ∈ p.free := (mem_free hp).mpr ⟨h1, hsize, hfree⟩
  have habove : ∀ i ∈ (p.assign id g).free, id < i := by
    intro i hi
    obtain ⟨hne, hi⟩ := (hmem i).mp hi
    obtain ⟨h1, -, hnone⟩ := (mem_free hp).mp hi
    by_contra hle
    have hsome := hlow i h1 (by omega)
    rw [hnone] at hsome
    exact Bool.false_ne_true hsome
  refine p.free_increasing.eq_of_mem_iff
    (List.pairwise_cons.mpr ⟨habove, free_increasing _⟩) fun i => ?_
  rw [List.mem_cons, hmem]
  constructor
  · intro hi
    by_cases hi' : i = id
    · exact Or.inl hi'
    · exact Or.inr ⟨hi', hi⟩
  · rintro (rfl | ⟨-, hi⟩)
    · exact hlowest
    · exact hi

/-- Claiming groups for applications: the newcomers get the lowest free groups in turn, and all others
keep theirs. -/
theorem Valid.claimAll (hp : p.Valid) (h : p.claimAll gs = .ok q) :
    (p.newcomers gs).length ≤ p.free.length ∧
      q.byId.Perm (p.byId ++ p.free.zip (p.newcomers gs)) := by
  induction gs generalizing p with
  | nil =>
    cases h
    exact ⟨Nat.zero_le _, by simp [newcomers]⟩
  | cons g gs ih =>
    unfold GroupPool.claimAll at h
    rw [List.foldlM_cons] at h
    obtain ⟨u, hu, h⟩ := bind_eq_ok.mp h
    obtain ⟨⟨id, u⟩, hclaim, rfl⟩ := map_eq_ok.mp hu
    have hvalid := (claimed_of_claim hp hclaim).valid
    obtain ⟨hroom, hperm⟩ := ih hvalid h
    rcases claim_cases hclaim with ⟨hid, rfl⟩ | ⟨hid, hlowest, rfl⟩
    · have hknown : g ∈ u.byId.map (·.2) := (idOf?_isSome hp).mp (by rw [hid]; rfl)
      rw [newcomers_cons_known hknown]
      exact ⟨hroom, hperm⟩
    · obtain ⟨hfree, -, -⟩ := lowestFree?_eq_some.mp hlowest
      have hnew : g ∉ p.byId.map (·.2) := by
        rw [← idOf?_isSome hp, hid]
        exact Bool.false_ne_true
      rw [newcomers_cons_new hp hfree hnew, free_eq_cons hp hlowest hvalid, List.zip_cons_cons]
      refine ⟨Nat.succ_le_succ hroom, hperm.trans ?_⟩
      exact ((assign_perm hp hfree).append_right _).trans List.perm_middle.symm

end GroupPool

/-! ### Batches -/

theorem crowded_iff {n : Nat} {ps : List Policy} :
    Crowded n ps ↔ n < (ps.flatMap Policy.ends).toFinset.card := by
  unfold Crowded
  constructor
  · rintro ⟨gs, hnodup, hlt, hgs⟩
    have hsub : gs.toFinset ⊆ (ps.flatMap Policy.ends).toFinset := by
      intro g hg
      rw [List.mem_toFinset] at hg ⊢
      exact List.mem_flatMap.mpr (hgs g hg)
    have hcard := Finset.card_le_card hsub
    rw [List.toFinset_card_of_nodup hnodup] at hcard
    omega
  · intro h
    refine ⟨(ps.flatMap Policy.ends).dedup, List.nodup_dedup _, h, fun g hg => ?_⟩
    exact List.mem_flatMap.mp (List.mem_dedup.mp hg)

/-- The policy with a key that carries no tags. -/
def Policy.Key.policy (k : Policy.Key) : Policy :=
  ⟨⟨k.source, ""⟩, ⟨k.destination, "", k.protocol, k.ports⟩⟩

namespace MemoryStore

variable {m m' : MemoryStore} {ps : List Policy}

/-- The keys of a batch behind those that are there: each of the others once, where it is first. -/
theorem foldl_addKey (ks : List Policy.Key) (ps : List Policy) : ps.foldl addKey ks =
    ks ++ ((ps.map Policy.key).filter fun k => !ks.contains k).eraseDups := by
  induction ps generalizing ks with
  | nil => simp
  | cons p ps ih =>
    rw [List.foldl_cons, ih, addKey, List.map_cons]
    split_ifs with h
    · rw [List.filter_cons_of_neg (by simpa using h)]
    · have hseen : ∀ k, k ∈ ks ++ [p.key] ↔ k = p.key ∨ k ∈ ks := fun k => by
        rw [List.mem_append, List.mem_singleton, or_comm]
      have hnew : p.key ∉ ks := by simpa using h
      rw [eraseDups_unseen_cons hnew hseen, List.append_assoc, List.singleton_append]

theorem claimAll_of_createOne {p : Policy} (h : m.createOne p = .ok m') :
    m.groups.claimAll p.ends = .ok m'.groups := by
  obtain ⟨i, j, q, hi, hj, -, -⟩ := createOne_ok h
  simp only [GroupPool.claimAll, Policy.ends, List.foldlM_cons, List.foldlM_nil, hi, hj, Except.map,
    bind, Except.bind, pure, Except.pure]

/-- A batch of creations claims groups for the ends of its policies in turn. -/
theorem claimAll_of_createAll (h : ps.foldlM createOne m = .ok m') :
    m.groups.claimAll (ps.flatMap Policy.ends) = .ok m'.groups := by
  induction ps generalizing m with
  | nil =>
    cases h
    rfl
  | cons p ps ih =>
    rw [List.foldlM_cons] at h
    obtain ⟨u, hu, h⟩ := bind_eq_ok.mp h
    have hfirst := claimAll_of_createOne hu
    have hrest := ih h
    unfold GroupPool.claimAll at hfirst hrest ⊢
    rw [List.flatMap_cons, List.foldlM_append, hfirst]
    exact hrest

theorem Valid.ends_toFinset (hm : m.Valid) (ps : List Policy) :
    ((m.policies ++ ps).flatMap Policy.ends).toFinset =
      (m.groups.byId.map (·.2)).toFinset ∪ (ps.flatMap Policy.ends).toFinset := by
  ext g
  rw [List.flatMap_append, List.toFinset_append, Finset.mem_union, Finset.mem_union,
    List.mem_toFinset, List.mem_toFinset, List.mem_toFinset, hm.mem_assigned_iff,
    List.mem_flatMap]

/-- What creating a batch adds to the listed policies. -/
theorem Valid.added_createAll (hm : m.Valid) (h : ps.foldlM MemoryStore.createOne m = .ok m') :
    ∃ added, m'.policies = m.policies ++ added ∧ added.map Policy.key =
      ((ps.map Policy.key).filter fun k => !(m.policies.map Policy.key).contains k).eraseDups := by
  obtain ⟨-, -, ⟨added, hadded⟩, hkeys⟩ := hm.createAll h
  refine ⟨added, hadded.symm, ?_⟩
  rw [foldl_addKey, keys, ← hadded, List.map_append] at hkeys
  exact List.append_cancel_left hkeys

end MemoryStore

/-! ### Creating in a store of any kind -/

namespace Database.Tables

/-- The rows of groups as a pool, whose reverse map is made from them. -/
def pool (t : Tables) : GroupPool where
  size := t.groups.length
  byId := t.assigned.map fun e => (e.1.toNat, e.2)
  byGuid := .ofEntries (t.assigned.map fun e => (e.2, e.1.toNat))

theorem pool_eq {t : Tables} {p : GroupPool} (ht : t.groups = groupRows p) (hp : p.Valid) :
    t.pool = p := by
  have hsize : t.groups.length = p.size := by
    rw [ht, groupRows, List.length_map, List.length_range']
  have hbyId : (t.assigned.map fun e => (e.1.toNat, e.2)) = p.byId := by
    rw [assigned_eq ht hp, List.map_map]
    exact List.map_id _
  have hbyGuid : .ofEntries (t.assigned.map fun e => (e.2, e.1.toNat)) = p.byGuid := by
    have hswapped : (t.assigned.map fun e => (e.2, e.1.toNat)) =
        p.byId.map fun e => (e.2, e.1) := by
      rw [assigned_eq ht hp, List.map_map]
      rfl
    have hkeys : ((p.byId.map fun e => (e.2, e.1)).map (·.1)).Nodup := by
      rw [List.map_map]
      exact hp.distinct
    rw [hswapped]
    refine (OrderedMap.increasing_ofEntries _).eq_of_mem_iff hp.sorted fun e => ?_
    rw [OrderedMap.mem_ofEntries hkeys, hp.inverse]
    simp [Prod.ext_iff, and_comm]
  rw [pool, hsize, hbyId, hbyGuid]

end Database.Tables

namespace OpenStore

/-- The groups of a store, and the applications that they are assigned to. -/
def pool : OpenStore → GroupPool
  | memory s => s.groups
  | sqlite s => s.server.tables.pool
  | postgres s => s.server.tables.pool

def tagLength : OpenStore → TagLength
  | memory s => s.tagLength
  | sqlite s => s.tagLength
  | postgres s => s.tagLength

variable {o o' : OpenStore} {m : MemoryStore} {ps : List Policy} {limit : Option TimeLimit}

theorem pool_eq (h : standing.stands o m) : o.pool = m.groups := by
  have hm := standing.valid h
  rcases o with s | s | s
  · exact congrArg (·.groups) h.1
  · exact Database.Tables.pool_eq h.represents.groups hm.groups
  · exact Database.Tables.pool_eq h.represents.groups hm.groups

theorem tagLength_eq (h : standing.stands o m) : o.tagLength = m.tagLength := by
  rcases o with s | s | s
  · exact congrArg (·.tagLength) h.1
  · exact h.tagLength.symm
  · exact h.tagLength.symm

/-- The tag of an assigned group. -/
def tagOf (o : OpenStore) (e : Nat × String) : Tag := ⟨e.2, o.tagLength.render e.1⟩

/-- Nothing hindered a write on `o` that left `o'`: the server refused nothing, and the time was up
neither before the batch nor when it was to be committed. -/
structure Undisturbed (o o' : OpenStore) (limit : Option TimeLimit) : Prop where
  accepted : ¬ standing.refused o o'
  early : limit.any (standing.early o) = false
  late : limit.any TimeLimit.isUp = false

theorem undisturbed_memory (s : MemoryStore) (o' : OpenStore) :
    (memory s).Undisturbed o' none where
  accepted := by cases o' <;> exact not_false
  early := rfl
  late := rfl

/-- The batch has been created in `o`, which is `o'` since. -/
structure Created (o o' : OpenStore) (ps : List Policy) : Prop where
  /-- Behind the old policies stand those not stored before, each where it is first in the batch. -/
  policies : ∃ old added, o.policies = .ok old ∧ o'.policies = .ok (old ++ added) ∧
    added.map Policy.key =
      ((ps.map Policy.key).filter fun k => !(old.map Policy.key).contains k).eraseDups
  size : o'.pool.size = o.pool.size
  room : (o.pool.newcomers (ps.flatMap Policy.ends)).length ≤ o.pool.free.length
  /-- Besides the old assignments, the new applications have the lowest free groups in turn. -/
  assigned : o'.pool.byId.Perm
    (o.pool.byId ++ o.pool.free.zip (o.pool.newcomers (ps.flatMap Policy.ends)))
  tags : o.tags = .ok (o.pool.byId.map o.tagOf) ∧
    o'.tags = .ok (o'.pool.byId.map o.tagOf)

theorem created (hs : standing.stands o m) {m' : MemoryStore} (hs' : standing.stands o' m')
    (h : ps.foldlM MemoryStore.createOne m = .ok m') : o.Created o' ps := by
  have hm := standing.valid hs
  obtain ⟨-, hext, -, -⟩ := hm.createAll h
  obtain ⟨added, hpolicies, hkeys⟩ := hm.added_createAll h
  obtain ⟨hroom, hperm⟩ := hm.groups.claimAll (MemoryStore.claimAll_of_createAll h)
  have htag : ∀ e, o.tagOf e = ⟨e.2, m.tagLength.render e.1⟩ := fun e => by
    rw [tagOf, tagLength_eq hs]
  constructor
  · exact ⟨m.policies, added, policies_eq hs, hpolicies ▸ policies_eq hs', hkeys⟩
  · rw [pool_eq hs, pool_eq hs', hext.size]
  · rw [pool_eq hs]
    exact hroom
  · rw [pool_eq hs, pool_eq hs']
    exact hperm
  · rw [pool_eq hs, pool_eq hs', tags_eq hs, tags_eq hs', funext htag]
    refine ⟨rfl, ?_⟩
    rw [← hext.tagLength]
    rfl

/-- The tags of submitted policies play no part. -/
theorem create_congr {qs : List Policy} (h : qs.map Policy.key = ps.map Policy.key) :
    store.create qs limit o = store.create ps limit o := by
  have hcleared : ∀ ps, store.create ((ps.map Policy.key).map Policy.Key.policy) limit o =
      store.create ps limit o := by
    intro ps
    rcases o with s | s | s
    · change (fun r => (r.1, memory r.2))
        (s.create ((ps.map Policy.key).map Policy.Key.policy) limit) = _
      rw [MemoryStore.create, List.foldlM_map, List.foldlM_map]
      rfl
    · change (fun r => (r.1, sqlite r.2))
        (s.perform (SqliteStore.create ((ps.map Policy.key).map Policy.Key.policy) limit)) = _
      rw [SqliteStore.create, List.forM_eq_forM, List.forM_map, List.forM_map]
      rfl
    · change (fun r => (r.1, postgres r.2))
        (s.perform (PostgresStore.create ((ps.map Policy.key).map Policy.Key.policy) limit)) = _
      rw [PostgresStore.create, List.forM_eq_forM, List.forM_map, List.forM_map]
      rfl
  rw [← hcleared qs, h, hcleared ps]

/-- In every reachable state, creating a batch that nothing hinders succeeds exactly if the assigned
applications and those of the batch are no more than the groups; else no group is found, and nothing
changes. -/
theorem create_exact (ho : o.Reachable) {r : Except StoreError Unit}
    (h : store.create ps limit o = (r, o')) (hu : o.Undisturbed o' limit) :
    (r = .ok () ↔ ((o.pool.byId.map (·.2)).toFinset ∪
      (ps.flatMap Policy.ends).toFinset).card ≤ o.pool.size) ∧
    (r = .ok () → o.Created o' ps) ∧
    (∀ e, r = .error e → e.kind = .capacity ∧ o'.policies = o.policies ∧ o'.tags = o.tags ∧
      o'.pool = o.pool) ∧
    ∀ qs, qs.map Policy.key = ps.map Policy.key → store.create qs limit o = (r, o') := by
  obtain ⟨m, hs⟩ := ho.stands
  have hm := standing.valid hs
  have hfull : (∃ e, ps.foldlM MemoryStore.createOne m = .error e) ↔ o.pool.size <
      ((o.pool.byId.map (·.2)).toFinset ∪ (ps.flatMap Policy.ends).toFinset).card := by
    rw [hm.createAll_error_iff, crowded_iff, hm.ends_toFinset, pool_eq hs]
  have hended : standing.Ended o m (m.attempt .create ps false false) (r, o') := by
    have hwrite := realizes.write hs .create ps limit
    rw [hu.early, hu.late] at hwrite
    exact h ▸ hwrite
  have hcongr : ∀ qs, qs.map Policy.key = ps.map Policy.key →
      store.create qs limit o = (r, o') := fun qs hqs => (create_congr hqs).trans h
  generalize hx : (r, o') = x at hended
  cases hended with
  | @done _ m' _ hideal _ _ hs' =>
    cases hx
    obtain ⟨-, -, hwritten⟩ := MemoryStore.attempt_eq_ok.mp hideal
    have hroom : ¬ ∃ e, ps.foldlM MemoryStore.createOne m = .error e := by
      rintro ⟨e, he⟩
      exact nomatch he.symm.trans hwritten
    rw [hfull, Nat.not_lt] at hroom
    have herror : ∀ e, (.ok () : Except StoreError Unit) ≠ .error e := fun e he => nomatch he
    exact ⟨iff_of_true rfl hroom, fun _ => created hs hs' hwritten,
      fun e he => absurd he (herror e), hcongr⟩
  | @failed e _ hideal _ hs' =>
    cases hx
    obtain ⟨e', he'⟩ : ∃ e', ps.foldlM MemoryStore.createOne m = .error e' := by
      have hfails := MemoryStore.attempt_eq_error.mp ⟨_, hideal⟩
      simpa [MemoryStore.written] using hfails
    have hcapacity := hideal.symm.trans (MemoryStore.attempt_of_error he')
    have hkind : e.kind = .capacity := Except.error.inj hcapacity
    have hroom := hfull.mp ⟨e', he'⟩
    have herror : (.error e : Except StoreError Unit) ≠ .ok () := fun he => nomatch he
    refine ⟨iff_of_false herror (Nat.not_le.mpr hroom), fun he => absurd he herror, ?_, hcongr⟩
    intro e'' he''
    cases he''
    exact ⟨hkind, by rw [policies_eq hs, policies_eq hs'], by rw [tags_eq hs, tags_eq hs'],
      by rw [pool_eq hs, pool_eq hs']⟩
  | refused hr =>
    cases hx
    exact absurd hr hu.accepted

/-- Four groups, of which the second has become free again. The two new applications of a batch get it
and the last one; a policy that is stored is not added again, nor is one that the batch names twice.
A batch with a third new application finds no group for it. -/
theorem create_exact_four_groups :
    let p : String → String → Policy := fun a b => ⟨⟨a, "ff"⟩, ⟨b, "", "tcp", ⟨80, 81⟩⟩⟩
    let o := memory ⟨.oneByte, ⟨4, [(1, "a"), (3, "c")], [("a", 1), ("c", 3)]⟩,
      [⟨3, 1, "tcp", ⟨80, 81⟩⟩]⟩
    let ps := [p "d" "c", p "c" "a", p "d" "c", p "a" "e"]
    let x := store.create ps none o
    let y := store.create (ps ++ [p "f" "a"]) none o
    o.Reachable ∧ o.Undisturbed x.2 none ∧ o.Undisturbed y.2 none ∧ x.1 = .ok () ∧
      x.2.pool.byId.Perm [(1, "a"), (3, "c"), (2, "d"), (4, "e")] ∧ y.1 ≠ .ok () := by
  intro p o ps x y
  have ho : o.Reachable := by
    have hreached : (memory (MemoryStore.store.answers [.write .create [p "a" "b", p "c" "a"] none,
        .write .delete [p "a" "b"] none] (.empty .oneByte 4)).2).Reachable :=
      .answer (.write .delete [p "a" "b"] none)
        (.answer (.write .create [p "a" "b", p "c" "a"] none) (.memory .oneByte 4))
    have hstate : (MemoryStore.store.answers [.write .create [p "a" "b", p "c" "a"] none,
        .write .delete [p "a" "b"] none] (.empty .oneByte 4)).2 =
          ⟨.oneByte, ⟨4, [(1, "a"), (3, "c")], [("a", 1), ("c", 3)]⟩,
            [⟨3, 1, "tcp", ⟨80, 81⟩⟩]⟩ := by
      decide +kernel
    rw [hstate] at hreached
    exact hreached
  have hx : o.Undisturbed x.2 none := undisturbed_memory _ x.2
  have hy : o.Undisturbed y.2 none := undisturbed_memory _ y.2
  have hxcall : store.create ps none o = (x.1, x.2) := rfl
  have hycall : store.create (ps ++ [p "f" "a"]) none o = (y.1, y.2) := rfl
  obtain ⟨hiff, hcreated, -, -⟩ := create_exact ho hxcall hx
  obtain ⟨hiff', -, -, -⟩ := create_exact ho hycall hy
  have hok : x.1 = .ok () := hiff.mpr (by decide +kernel)
  have hfull : y.1 ≠ .ok () := mt hiff'.mp (by decide +kernel)
  refine ⟨ho, hx, hy, hok, (hcreated hok).assigned.trans ?_, hfull⟩
  decide +kernel

end OpenStore
end NetworkPolicy
