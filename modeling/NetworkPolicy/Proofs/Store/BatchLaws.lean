import NetworkPolicy.Proofs.Store.Deletion

/-! The laws of batches: writing two one after the other is writing both at once, writing one again
changes nothing, and their order makes little difference. -/
namespace NetworkPolicy

/-! ### Creating in memory -/

namespace MemoryStore

variable {m m' : MemoryStore} {p : Policy} {ps qs : List Policy}

/-- A stored policy is not stored again. -/
theorem Valid.createOne_stored (hm : m.Valid) (hp : p.key ∈ m.keys) : m.createOne p = .ok m := by
  rw [keys, policies, List.map_map] at hp
  obtain ⟨r, hr, hkey⟩ := List.mem_map.mp hp
  obtain ⟨hsource, hdestination, hrow⟩ := (key_eq_iff hm.groups hm.named hr).mp hkey
  have hstored : m.rows.contains (rowOf r.source r.destination p) = true := by
    rw [hrow]
    exact List.contains_iff_mem.mpr hr
  unfold MemoryStore.createOne
  rw [GroupPool.claim_known hsource]
  change (m.groups.claim p.destination.id >>= _) = _
  rw [GroupPool.claim_known hdestination]
  change Except.ok { m with
    rows := if m.rows.contains (rowOf r.source r.destination p) then m.rows else _ } = _
  rw [if_pos hstored]

theorem Valid.createAll_stored (hm : m.Valid) (h : ∀ p ∈ ps, p.key ∈ m.keys) :
    ps.foldlM MemoryStore.createOne m = .ok m := by
  induction ps with
  | nil => rfl
  | cons p ps ih =>
    rw [List.foldlM_cons, hm.createOne_stored (h p List.mem_cons_self)]
    exact ih fun q hq => h q (List.mem_cons_of_mem _ hq)

theorem Valid.createAll_again (hm : m.Valid) (h : ps.foldlM MemoryStore.createOne m = .ok m') :
    ps.foldlM MemoryStore.createOne m' = .ok m' := by
  obtain ⟨hm', -, -, hkeys⟩ := hm.createAll h
  refine hm'.createAll_stored fun p hp => ?_
  rw [hkeys]
  exact mem_foldl_addKey.mpr (Or.inr ⟨p, hp, rfl⟩)

theorem Valid.mem_keys_createAll (hm : m.Valid)
    (h : ps.foldlM MemoryStore.createOne m = .ok m') (k : Policy.Key) :
    k ∈ m'.keys ↔ k ∈ m.keys ∨ k ∈ ps.map Policy.key := by
  obtain ⟨-, -, -, hkeys⟩ := hm.createAll h
  rw [hkeys, mem_foldl_addKey, List.mem_map]

theorem Valid.createAll_error_perm (hm : m.Valid) (h : ps.Perm qs) :
    (∃ e, ps.foldlM MemoryStore.createOne m = .error e) ↔
      ∃ e, qs.foldlM MemoryStore.createOne m = .error e := by
  rw [hm.createAll_error_iff, hm.createAll_error_iff, Crowded.perm (h.append_left m.policies)]

/-- In another order the batch stores the same keys, and gives tags to the same applications. -/
theorem Valid.createAll_perm (hm : m.Valid) (h : ps.Perm qs) {u v : MemoryStore}
    (hu : ps.foldlM MemoryStore.createOne m = .ok u)
    (hv : qs.foldlM MemoryStore.createOne m = .ok v) :
    u.keys.Perm v.keys ∧ (u.tags.map (·.id)).Perm (v.tags.map (·.id)) := by
  obtain ⟨hu', -⟩ := hm.createAll hu
  obtain ⟨hv', -⟩ := hm.createAll hv
  have hkeys : ∀ k, k ∈ u.keys ↔ k ∈ v.keys := by
    intro k
    rw [hm.mem_keys_createAll hu, hm.mem_keys_createAll hv, (h.map Policy.key).mem_iff]
  have htags : ∀ g, g ∈ u.tags.map (·.id) ↔ g ∈ v.tags.map (·.id) := by
    intro g
    rw [hu'.tagsOf.mem_iff, hv'.tagsOf.mem_iff, hm.named_createAll hu, hm.named_createAll hv]
    simp only [(h.append_left m.policies).mem_iff]
  exact ⟨(List.perm_ext_iff_of_nodup hu'.keys_nodup hv'.keys_nodup).mpr hkeys,
    (List.perm_ext_iff_of_nodup hu'.tagsOf.nodup hv'.tagsOf.nodup).mpr htags⟩

end MemoryStore

/-! ### Stores of any kind -/

/-- The batch in another order, or without its duplicates. -/
def Rebatched (ps qs : List Policy) : Prop :=
  qs.Perm ps ∨ qs = ps.eraseDups ∨ qs.map Policy.key = (ps.map Policy.key).eraseDups

theorem Rebatched.mem_keys {ps qs : List Policy} (h : Rebatched ps qs) (k : Policy.Key) :
    k ∈ qs.map Policy.key ↔ k ∈ ps.map Policy.key := by
  rcases h with h | h | h
  · exact (h.map Policy.key).mem_iff
  · simp only [h, List.mem_map, List.mem_eraseDups]
  · rw [h, List.mem_eraseDups]

namespace OpenStore

variable {o o₁ o₂ o₃ : OpenStore} {m : MemoryStore} {ps qs : List Policy}
  {r₁ r₂ r₃ : Except StoreError Unit}

theorem delete_append (hs : standing.stands o m) (h : o.Wrote .delete (ps ++ qs) r₁ o₁)
    (hps : o.Wrote .delete ps r₂ o₂) (hqs : o₂.Wrote .delete qs r₃ o₃) :
    r₁ = .ok () ∧ r₂ = .ok () ∧ r₃ = .ok () ∧ o₃.ListsAs o₁ := by
  have hm := standing.valid hs
  obtain ⟨hok, hboth⟩ := h.done hs rfl
  obtain ⟨hok', hs'⟩ := hps.done hs rfl
  obtain ⟨hok'', hlast⟩ := hqs.done hs' rfl
  rw [hm.without_append] at hlast
  exact ⟨hok, hok', hok'', listsAs hlast hboth⟩

theorem delete_rebatched (hs : standing.stands o m) (hsame : Rebatched ps qs)
    (hps : o.Wrote .delete ps r₁ o₁) (hqs : o.Wrote .delete qs r₂ o₂) :
    r₁ = .ok () ∧ r₂ = .ok () ∧ o₂.ListsAs o₁ := by
  obtain ⟨hok, hs'⟩ := hps.done hs rfl
  obtain ⟨hok', hs''⟩ := hqs.done hs rfl
  rw [MemoryStore.without_congr hsame.mem_keys] at hs''
  exact ⟨hok, hok', listsAs hs'' hs'⟩

theorem create_append (hs : standing.stands o m) (h : o.Wrote .create (ps ++ qs) (.ok ()) o₁)
    (hps : o.Wrote .create ps r₂ o₂) (hqs : o₂.Wrote .create qs r₃ o₃) :
    r₂ = .ok () ∧ r₃ = .ok () ∧ o₃.ListsAs o₁ := by
  obtain ⟨limit, hcall, -⟩ := h
  obtain ⟨v, hv, hboth, -⟩ := written_of_ok hs hcall
  change (ps ++ qs).foldlM MemoryStore.createOne m = .ok v at hv
  rw [List.foldlM_append] at hv
  obtain ⟨u, hu, hv⟩ := bind_eq_ok.mp hv
  obtain ⟨hok, hs'⟩ := hps.done hs hu
  obtain ⟨hok', hlast⟩ := hqs.done hs' hv
  exact ⟨hok, hok', listsAs hlast hboth⟩

theorem create_twice (hs : standing.stands o m) (h : o.Wrote .create ps r₁ o₁)
    (hagain : o₁.Wrote .create ps r₂ o₂) : r₂ = r₁ ∧ o₂.ListsAs o₁ := by
  have hm := standing.valid hs
  have hexhausted := exhausted_eq (h.later hs)
  cases hw : m.written .create ps with
  | ok m' =>
    obtain ⟨hok, hs'⟩ := h.done hs hw
    obtain ⟨hok', hs''⟩ := hagain.done hs' (hm.createAll_again hw)
    exact ⟨hok'.trans hok.symm, listsAs hs'' hs'⟩
  | error e =>
    obtain ⟨hfull, hs'⟩ := h.full hs hw
    obtain ⟨hfull', hs''⟩ := hagain.full hs' hw
    rw [hexhausted] at hfull'
    exact ⟨hfull'.trans hfull.symm, listsAs hs'' hs'⟩

/-- The stores list policies with the same keys, and tags of the same applications. -/
def ListsAlike (o o' : OpenStore) : Prop :=
  ∃ ps qs tags tags', o.policies = .ok ps ∧ o'.policies = .ok qs ∧ o.tags = .ok tags ∧
    o'.tags = .ok tags' ∧ (ps.map Policy.key).Perm (qs.map Policy.key) ∧
    (tags.map (·.id)).Perm (tags'.map (·.id))

theorem create_perm (hs : standing.stands o m) (hperm : qs.Perm ps)
    (hps : o.Wrote .create ps r₁ o₁) (hqs : o.Wrote .create qs r₂ o₂) :
    r₂ = r₁ ∧ o₂.ListsAlike o₁ := by
  have hm := standing.valid hs
  have herror := hm.createAll_error_perm hperm
  cases hp : m.written .create ps with
  | ok v =>
    cases hq : m.written .create qs with
    | error e =>
      obtain ⟨e', he'⟩ := herror.mp ⟨e, hq⟩
      exact nomatch he'.symm.trans hp
    | ok u =>
      obtain ⟨hok, hv⟩ := hps.done hs hp
      obtain ⟨hok', hu⟩ := hqs.done hs hq
      obtain ⟨hkeys, htags⟩ := hm.createAll_perm hperm hq hp
      exact ⟨hok'.trans hok.symm, u.policies, v.policies, u.tags, v.tags, policies_eq hu,
        policies_eq hv, tags_eq hu, tags_eq hv, hkeys, htags⟩
  | error e =>
    obtain ⟨e', hq⟩ := herror.mpr ⟨e, hp⟩
    obtain ⟨hfull, hv⟩ := hps.full hs hp
    obtain ⟨hfull', hu⟩ := hqs.full hs hq
    exact ⟨hfull'.trans hfull.symm, m.policies, m.policies, m.tags, m.tags, policies_eq hu,
      policies_eq hv, tags_eq hu, tags_eq hv, .refl _, .refl _⟩

/-- The laws of the batches `ps` and `qs` on a store; a `Wrote` is a write that nothing hinders. -/
structure BatchLaws (o : OpenStore) (ps qs : List Policy) : Prop where
  delete_append : ∀ {r₁ r₂ r₃ o₁ o₂ o₃}, o.Wrote .delete (ps ++ qs) r₁ o₁ →
    o.Wrote .delete ps r₂ o₂ → o₂.Wrote .delete qs r₃ o₃ →
    r₁ = .ok () ∧ r₂ = .ok () ∧ r₃ = .ok () ∧ o₃.ListsAs o₁
  delete_rebatched : ∀ {ts r₁ r₂ o₁ o₂}, Rebatched (ps ++ qs) ts →
    o.Wrote .delete (ps ++ qs) r₁ o₁ → o.Wrote .delete ts r₂ o₂ →
    r₁ = .ok () ∧ r₂ = .ok () ∧ o₂.ListsAs o₁
  create_append : ∀ {r₂ r₃ o₁ o₂ o₃}, o.Wrote .create (ps ++ qs) (.ok ()) o₁ →
    o.Wrote .create ps r₂ o₂ → o₂.Wrote .create qs r₃ o₃ →
    r₂ = .ok () ∧ r₃ = .ok () ∧ o₃.ListsAs o₁
  create_twice : ∀ {r₁ r₂ o₁ o₂}, o.Wrote .create ps r₁ o₁ → o₁.Wrote .create ps r₂ o₂ →
    r₂ = r₁ ∧ o₂.ListsAs o₁
  /-- Which groups the applications get may depend on the order, nothing else does. -/
  create_perm : ∀ {ts r₁ r₂ o₁ o₂}, ts.Perm ps → o.Wrote .create ps r₁ o₁ →
    o.Wrote .create ts r₂ o₂ → r₂ = r₁ ∧ o₂.ListsAlike o₁

/-- In every reachable state the laws hold of all batches. -/
theorem batchLaws (ho : o.Reachable) (ps qs : List Policy) : o.BatchLaws ps qs := by
  obtain ⟨m, hs⟩ := ho.stands
  exact {
    delete_append := delete_append hs
    delete_rebatched := delete_rebatched hs
    create_append := create_append hs
    create_twice := create_twice hs
    create_perm := create_perm hs }

/-- The first batch frees the group of an application that the second one names; the order of a third
one decides which of the two free groups each new application gets. -/
theorem batchLaws_five_groups :
    let p : String → String → Policy := fun a b => ⟨⟨a, ""⟩, ⟨b, "", "tcp", ⟨80, 81⟩⟩⟩
    let o := memory ⟨.oneByte, ⟨5, [(1, "a"), (2, "b"), (3, "c")], [("a", 1), ("b", 2), ("c", 3)]⟩,
      [⟨1, 2, "tcp", ⟨80, 81⟩⟩, ⟨2, 3, "tcp", ⟨80, 81⟩⟩]⟩
    let ps := [p "a" "b", p "a" "b"]
    let qs := [p "b" "c", p "c" "a"]
    let ts := [p "d" "a", p "e" "a"]
    let both := store.delete (ps ++ qs) none o
    let first := store.delete ps none o
    let last := store.delete qs none first.2
    let x := store.create ts none o
    let y := store.create ts.reverse none o
    o.Reachable ∧ first.2.tags = .ok [⟨"b", "02"⟩, ⟨"c", "03"⟩] ∧ last.2.ListsAs both.2 ∧
      y.1 = x.1 ∧ y.2.ListsAlike x.2 ∧ y.2.tags ≠ x.2.tags := by
  intro p o ps qs ts both first last x y
  have hstate : (store.answers [.write .create [p "a" "b", p "b" "c"] none]
      (memory (.empty .oneByte 5))).2 = o := eq_memory (by decide +kernel)
  have ho : o.Reachable := hstate ▸ (Reachable.memory .oneByte 5).answers _
  have hboth : o.Wrote .delete (ps ++ qs) both.1 both.2 := ⟨none, rfl, undisturbed_memory _ _⟩
  have hfirst : o.Wrote .delete ps first.1 first.2 := ⟨none, rfl, undisturbed_memory _ _⟩
  have hlast : first.2.Wrote .delete qs last.1 last.2 := ⟨none, rfl, undisturbed_memory _ _⟩
  have hx : o.Wrote .create ts x.1 x.2 := ⟨none, rfl, undisturbed_memory _ _⟩
  have hy : o.Wrote .create ts.reverse y.1 y.2 := ⟨none, rfl, undisturbed_memory _ _⟩
  obtain ⟨-, -, -, hlists⟩ := (batchLaws ho ps qs).delete_append hboth hfirst hlast
  obtain ⟨hsame, halike⟩ := (batchLaws ho ts qs).create_perm ts.reverse_perm hx hy
  exact ⟨ho, by decide +kernel, hlists, hsame, halike, by decide +kernel⟩

end OpenStore
end NetworkPolicy
