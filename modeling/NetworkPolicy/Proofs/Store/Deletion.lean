import NetworkPolicy.Proofs.Store.Undisturbed

/-! What deleting a batch does, exactly: which policies and which tags are left. Deleting one batch
after the other is deleting both at once, for a state is known by the policies that it lists and the
groups that their applications can have. -/
namespace NetworkPolicy

namespace MemoryStore

variable {m m' : MemoryStore} {pool : GroupPool} {ps qs : List Policy}

/-! ### States and their listings -/

/-- The row of a policy whose applications have groups. -/
def rowFor (m : MemoryStore) (p : Policy) : MemoryRow :=
  rowOf ((m.groups.idOf? p.source.id).getD 0) ((m.groups.idOf? p.destination.id).getD 0) p

theorem Valid.rows_eq (hm : m.Valid) : m.rows = m.policies.map m.rowFor := by
  have hback : ∀ r ∈ m.rows, m.rowFor (m.policyOf r) = r := by
    intro r hr
    obtain ⟨hsource, hdestination, hrow⟩ := (key_eq_iff hm.groups hm.named hr).mp rfl
    rw [rowFor, hsource, hdestination]
    exact hrow
  rw [policies, List.map_map]
  exact ((List.map_congr_left hback).trans (List.map_id' _)).symm

theorem Valid.mem_assigned_of_named (hm : m.Valid) (hpool : pool.Valid)
    (hsub : m.groups.byId ⊆ pool.byId) {e : Nat × String} (he : e ∈ pool.byId)
    (hnamed : ∃ p ∈ m.policies, e.2 ∈ p.ends) : e ∈ m.groups.byId := by
  obtain ⟨e', he', hsame⟩ := List.mem_map.mp ((hm.mem_assigned_iff e.2).mpr hnamed)
  exact List.inj_on_of_nodup_map hpool.distinct (hsub he') he hsame ▸ he'

/-- States that list the same policies are the same, if their applications have their groups from one
pool. -/
theorem Valid.eq_of_policies (hm : m.Valid) (hm' : m'.Valid) (hpool : pool.Valid)
    (hsub : m.groups.byId ⊆ pool.byId) (hsub' : m'.groups.byId ⊆ pool.byId)
    (htag : m'.tagLength = m.tagLength) (hsize : m'.groups.size = m.groups.size)
    (h : m'.policies = m.policies) : m' = m := by
  have hgroups : m'.groups = m.groups := by
    refine hm'.groups.eq_of_mem_iff hm.groups hsize fun e => ⟨fun he => ?_, fun he => ?_⟩
    · have hnamed := (hm'.mem_assigned_iff e.2).mp (List.mem_map_of_mem he)
      exact hm.mem_assigned_of_named hpool hsub (hsub' he) (h ▸ hnamed)
    · have hnamed := (hm.mem_assigned_iff e.2).mp (List.mem_map_of_mem he)
      exact hm'.mem_assigned_of_named hpool hsub' (hsub he) (h ▸ hnamed)
  have hrowFor : m'.rowFor = m.rowFor := by
    unfold rowFor
    rw [hgroups]
  refine MemoryStore.ext htag hgroups ?_
  rw [hm'.rows_eq, hm.rows_eq, h, hrowFor]

/-! ### Deleting in memory -/

theorem without_subset (m : MemoryStore) (ps : List Policy) :
    (m.without ps).groups.byId ⊆ m.groups.byId :=
  List.filter_subset_self _

/-- Groups that the first batch frees are not named in the end, so that it makes no difference when
they become free. -/
theorem Valid.without_append (hm : m.Valid) (ps qs : List Policy) :
    (m.without ps).without qs = m.without (ps ++ qs) := by
  have hfirst := hm.without ps
  have hpolicies : ((m.without ps).without qs).policies = (m.without (ps ++ qs)).policies := by
    rw [hfirst.policies_without, hm.policies_without, hm.policies_without, List.filter_filter]
    refine List.filter_congr fun p _ => ?_
    rw [List.map_append, List.contains_append, Bool.not_or, Bool.and_comm]
  have hsub := List.Subset.trans ((m.without ps).without_subset qs) (m.without_subset ps)
  exact (hm.without (ps ++ qs)).eq_of_policies (hfirst.without qs) hm.groups
    (m.without_subset (ps ++ qs)) hsub rfl rfl hpolicies

end MemoryStore

/-! ### Deleting in a store of any kind -/

namespace OpenStore

variable {o o' : OpenStore} {m : MemoryStore} {ps : List Policy} {limit : Option TimeLimit}

/-- The batch has been deleted from `o`, which is `o'` since and lists the policies `left`. -/
structure Deleted (o o' : OpenStore) (ps left : List Policy) : Prop where
  /-- They are the old ones without those that the batch names. -/
  policies : o'.policies = .ok left ∧ ∃ old, o.policies = .ok old ∧
    left = old.filter fun p => !(ps.map Policy.key).contains p.key
  /-- Just the applications that they name have kept their tags. -/
  tags : ∃ old, o.tags = .ok old ∧
    o'.tags = .ok (old.filter fun t => left.any (·.ends.contains t.id)) ∧
    TagsOf left (old.filter fun t => left.any (·.ends.contains t.id))
  size : o'.pool.size = o.pool.size
  assigned : o'.pool.byId =
    o.pool.byId.filter fun e => left.any (·.ends.contains e.2)

theorem deleted (hs : standing.stands o m) (hs' : standing.stands o' (m.without ps)) :
    o.Deleted o' ps (m.without ps).policies := by
  have hm := standing.valid hs
  constructor
  · exact ⟨policies_eq hs', m.policies, policies_eq hs, hm.policies_without ps⟩
  · have htags := hm.tags_without ps
    exact ⟨m.tags, tags_eq hs, htags ▸ tags_eq hs', htags ▸ (hm.without ps).tagsOf⟩
  · rw [pool_eq hs, pool_eq hs']
    rfl
  · rw [pool_eq hs, pool_eq hs']
    exact hm.byId_without ps

/-- In every reachable state, deleting a batch that nothing hinders succeeds: the policies that the
batch names are gone, and the tags of applications that no policy names any more. -/
theorem delete_exact (ho : o.Reachable) {r : Except StoreError Unit}
    (h : store.delete ps limit o = (r, o')) (hu : o.Undisturbed o' limit) :
    r = .ok () ∧ ∃ left, o.Deleted o' ps left := by
  obtain ⟨m, hs⟩ := ho.stands
  have hwrote : o.Wrote .delete ps r o' := ⟨limit, h, hu⟩
  obtain ⟨hok, hs'⟩ := hwrote.done hs rfl
  exact ⟨hok, _, deleted hs hs'⟩

/-- A batch that names an application without a group, a policy that is not stored, and one that is
stored, twice: only the last is gone, and of the two applications that it names one is still named. -/
theorem delete_exact_three_groups :
    let p : String → String → Policy := fun a b => ⟨⟨a, "ff"⟩, ⟨b, "", "tcp", ⟨80, 81⟩⟩⟩
    let o := memory ⟨.oneByte, ⟨4, [(1, "a"), (2, "b"), (3, "c")], [("a", 1), ("b", 2), ("c", 3)]⟩,
      [⟨1, 2, "tcp", ⟨80, 81⟩⟩, ⟨3, 1, "tcp", ⟨80, 81⟩⟩]⟩
    let ps := [p "d" "a", p "b" "c", p "a" "b", p "a" "b"]
    let x := store.delete ps none o
    o.Reachable ∧ o.Undisturbed x.2 none ∧ x.1 = .ok () ∧
      x.2.policies = .ok [⟨⟨"c", "03"⟩, ⟨"a", "01", "tcp", ⟨80, 81⟩⟩⟩] ∧
      x.2.pool.byId = [(1, "a"), (3, "c")] := by
  intro p o ps x
  have hstate : (store.answers [.write .create [p "a" "b", p "c" "a"] none]
      (memory (.empty .oneByte 4))).2 = o := eq_memory (by decide +kernel)
  have ho : o.Reachable := hstate ▸ (Reachable.memory .oneByte 4).answers _
  have hx : o.Undisturbed x.2 none := undisturbed_memory _ x.2
  have hcall : store.delete ps none o = (x.1, x.2) := rfl
  obtain ⟨hok, left, hdeleted⟩ := delete_exact ho hcall hx
  obtain ⟨hpolicies, old, hold, hleft⟩ := hdeleted.policies
  have hlisted : o.policies = .ok [⟨⟨"a", "01"⟩, ⟨"b", "02", "tcp", ⟨80, 81⟩⟩⟩,
      ⟨⟨"c", "03"⟩, ⟨"a", "01", "tcp", ⟨80, 81⟩⟩⟩] := by
    decide +kernel
  cases hlisted.symm.trans hold
  cases hleft
  have hassigned := hdeleted.assigned
  refine ⟨ho, hx, hok, hpolicies.trans ?_, hassigned.trans ?_⟩
  · decide +kernel
  · decide +kernel

end OpenStore
end NetworkPolicy
