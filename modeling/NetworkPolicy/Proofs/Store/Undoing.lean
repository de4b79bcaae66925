import NetworkPolicy.Proofs.Store.Deletion

/-! Deleting what a batch has created takes a store back to where it was: no later call can tell. -/
namespace NetworkPolicy

/-! ### Taking a batch back in memory -/

namespace MemoryStore

variable {m m' : MemoryStore} {ps qs : List Policy}

theorem Valid.policies_without_createAll (hm : m.Valid) (hnew : ∀ p ∈ ps, p.key ∉ m.keys)
    (h : ps.foldlM MemoryStore.createOne m = .ok m') : (m'.without ps).policies = m.policies := by
  obtain ⟨hm', -⟩ := hm.createAll h
  obtain ⟨added, hpolicies, hadded⟩ := hm.added_createAll h
  have hold : ∀ p ∈ m.policies, p.key ∉ ps.map Policy.key := by
    intro p hp hmem
    obtain ⟨q, hq, hkey⟩ := List.mem_map.mp hmem
    exact hnew q hq (hkey ▸ List.mem_map_of_mem hp)
  have hbatch : ∀ p ∈ added, p.key ∈ ps.map Policy.key := by
    intro p hp
    have hmem : p.key ∈ added.map Policy.key := List.mem_map_of_mem hp
    rw [hadded, List.mem_eraseDups] at hmem
    exact List.mem_of_mem_filter hmem
  have hkept : (m.policies.filter fun p => !(ps.map Policy.key).contains p.key) = m.policies :=
    List.filter_eq_self.mpr fun p hp => by simpa using hold p hp
  have hgone : (added.filter fun p => !(ps.map Policy.key).contains p.key) = [] :=
    List.filter_eq_nil_iff.mpr fun p hp => by simpa using hbatch p hp
  rw [hm'.policies_without, hpolicies, List.filter_append, hkept, hgone, List.append_nil]

/-- Deleting what was created gives the very state before. -/
theorem Valid.without_createAll (hm : m.Valid) (hnew : ∀ p ∈ ps, p.key ∉ m.keys)
    (h : ps.foldlM MemoryStore.createOne m = .ok m')
    (hkeys : ∀ k, k ∈ qs.map Policy.key ↔ k ∈ ps.map Policy.key) : m'.without qs = m := by
  obtain ⟨hm', hext, -⟩ := hm.createAll h
  have hkeeps : m.groups.byId ⊆ m'.groups.byId := fun e he =>
    (GroupPool.guidOf?_eq_some hm'.groups).mp
      (hext.guidOf? _ _ ((GroupPool.guidOf?_eq_some hm.groups).mpr he))
  rw [without_congr hkeys]
  exact hm.eq_of_policies (hm'.without ps) hm'.groups hkeeps (m'.without_subset ps) hext.tagLength
    hext.size (hm.policies_without_createAll hnew h)

end MemoryStore

/-! ### Stores of any kind -/

namespace OpenStore

variable {o o₁ o₂ : OpenStore} {ps qs old : List Policy} {limit : Option TimeLimit}
  {r : Except StoreError Unit}

/-- In every reachable state, deleting a batch with just the keys of one that has been created, and of
which nothing was stored before, succeeds: the store lists what it did before, and answers all calls as
it would have, for as long as its server refuses none. -/
theorem delete_undoes_create (ho : o.Reachable) (hold : o.policies = .ok old)
    (hnew : ∀ p ∈ ps, p.key ∉ old.map Policy.key)
    (hcreate : store.create ps limit o = (.ok (), o₁))
    (hkeys : ∀ k, k ∈ qs.map Policy.key ↔ k ∈ ps.map Policy.key)
    (hdelete : o₁.Wrote .delete qs r o₂) :
    r = .ok () ∧ o₂.ListsAs o ∧ ∀ rs, ¬ standing.refused o (store.answers rs o).2 →
      ¬ standing.refused o₂ (store.answers rs o₂).2 →
      (store.answers rs o₂).1 = (store.answers rs o).1 := by
  obtain ⟨m, hs⟩ := ho.stands
  have hm := standing.valid hs
  cases (policies_eq hs).symm.trans hold
  obtain ⟨m', hw, hs₁, hlater⟩ := written_of_ok (w := .create) hs hcreate
  obtain ⟨hok, hs₂⟩ := hdelete.done hs₁ rfl
  rw [hm.without_createAll hnew hw hkeys] at hs₂
  have hlater' := later_trans hlater (hdelete.later hs₁)
  exact ⟨hok, listsAs hs₂ hs, answers_eq hs hs₂ (exhausted_eq hlater') (early_eq hlater')⟩

/-- Two groups are free. The batch takes the lower one, for an application that it names as a source,
as a destination and as both; deleted in another order, it gives the group back, and the next new
application gets it. -/
theorem delete_undoes_create_four_groups :
    let p : String → String → Policy := fun a b => ⟨⟨a, ""⟩, ⟨b, "", "tcp", ⟨80, 81⟩⟩⟩
    let o := memory ⟨.oneByte, ⟨4, [(1, "a"), (3, "c")], [("a", 1), ("c", 3)]⟩,
      [⟨3, 1, "tcp", ⟨80, 81⟩⟩]⟩
    let ps := [p "d" "c", p "d" "d", p "a" "d", p "d" "c"]
    let qs := [p "a" "d", p "d" "c", p "d" "d", p "d" "d"]
    let rs := [.write .create [p "e" "a"] none, .tags, .write .create [p "f" "g"] none]
    let x := store.create ps none o
    let y := store.delete qs none x.2
    o.Reachable ∧ x.1 = .ok () ∧ y.1 = .ok () ∧ y.2.ListsAs o ∧
      (store.answers rs y.2).1 = (store.answers rs o).1 := by
  intro p o ps qs rs x y
  have hstate : (store.answers [.write .create [p "a" "b", p "c" "a"] none,
      .write .delete [p "a" "b"] none] (memory (.empty .oneByte 4))).2 = o :=
    eq_memory (by decide +kernel)
  have ho : o.Reachable := hstate ▸ (Reachable.memory .oneByte 4).answers _
  have hold : o.policies = .ok [⟨⟨"c", "03"⟩, ⟨"a", "01", "tcp", ⟨80, 81⟩⟩⟩] := by decide +kernel
  have hok : x.1 = .ok () := by decide +kernel
  have hcreate : store.create ps none o = (.ok (), x.2) := Prod.ext hok rfl
  let created : MemoryStore := ⟨.oneByte,
    ⟨4, [(1, "a"), (2, "d"), (3, "c")], [("a", 1), ("c", 3), ("d", 2)]⟩,
    [⟨3, 1, "tcp", ⟨80, 81⟩⟩, ⟨2, 3, "tcp", ⟨80, 81⟩⟩, ⟨2, 2, "tcp", ⟨80, 81⟩⟩,
      ⟨1, 2, "tcp", ⟨80, 81⟩⟩]⟩
  have hx : x.2 = memory created := eq_memory (by decide +kernel)
  have hy : y.2 = o := eq_memory (by decide +kernel)
  have hcall : store.delete qs none x.2 = (y.1, y.2) := (Prod.mk.eta (p := y)).symm
  -- what the calls leave is known now, and is not computed again
  clear_value y x
  have hdone : x.2.Undisturbed y.2 none := by
    rw [hx]
    exact undisturbed_memory _ _
  have hdelete : x.2.Wrote .delete qs y.1 y.2 := ⟨none, hcall, hdone⟩
  have hkeys : ∀ k, k ∈ qs.map Policy.key ↔ k ∈ ps.map Policy.key := by
    intro k
    simp only [ps, qs, List.map_cons, List.map_nil, List.mem_cons, List.not_mem_nil, or_false]
    tauto
  obtain ⟨hdeleted, hlists, hanswers⟩ :=
    delete_undoes_create ho hold (by decide) hcreate hkeys hdelete
  have hq := not_refused_memory (rfl : o = memory _) (store.answers rs o).2
  have hq' := not_refused_memory hy (store.answers rs y.2).2
  exact ⟨ho, hok, hdeleted, hlists, hanswers rs hq hq'⟩

end OpenStore
end NetworkPolicy
