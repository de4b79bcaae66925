import Mathlib.Data.List.Perm.Subperm
import NetworkPolicy.Proofs.Store.Batches

/-! When a batch of creations finds no free group: exactly if the stored policies and those of the
batch name more applications than there are groups. -/
namespace NetworkPolicy

/-- The policies name more applications than there are groups. -/
def Crowded (groups : Nat) (ps : List Policy) : Prop :=
  ∃ gs : List String, gs.Nodup ∧ groups < gs.length ∧ ∀ g ∈ gs, ∃ p ∈ ps, g ∈ p.ends

theorem Crowded.perm {n : Nat} {ps qs : List Policy} (h : ps.Perm qs) :
    Crowded n ps ↔ Crowded n qs := by
  unfold Crowded
  simp only [h.mem_iff]

theorem ends_eq_of_key_eq {p q : Policy} (h : p.key = q.key) : p.ends = q.ends := by
  simp only [Policy.key, Policy.Key.mk.injEq] at h
  simp only [Policy.ends, h.1, h.2.1]

namespace GroupPool

variable {p : GroupPool} {guid : String}

theorem Valid.length_le (hp : p.Valid) : p.byId.length ≤ p.size := by
  have hsub : p.byId.map (·.1) ⊆ List.range' 1 p.size := by
    intro i hi
    obtain ⟨e, he, rfl⟩ := List.mem_map.mp hi
    have := hp.bounded e he
    exact List.mem_range'_1.mpr ⟨this.1, by omega⟩
  simpa using (hp.increasing.nodup_keys.subperm hsub).length_le

/-- An application that finds no group makes one more than there are groups. -/
theorem Valid.crowded_of_claim_error (hp : p.Valid) {e : StoreError}
    (h : p.claim guid = .error e) :
    (guid :: p.byId.map (·.2)).Nodup ∧ p.size < (guid :: p.byId.map (·.2)).length := by
  obtain ⟨hnew, hfull, -⟩ := claim_eq_error h
  constructor
  · refine List.nodup_cons.mpr ⟨fun hmem => ?_, hp.distinct⟩
    obtain ⟨e, he, rfl⟩ := List.mem_map.mp hmem
    exact (idOf?_eq_none hp).mp hnew e.1 he
  · have hsub : List.range' 1 p.size ⊆ p.byId.map (·.1) := by
      intro i hi
      obtain ⟨h1, h2⟩ := List.mem_range'_1.mp hi
      obtain ⟨g, hg⟩ := (guidOf?_isSome hp).mp (lowestFree?_eq_none.mp hfull i h1 (by omega))
      exact List.mem_map.mpr ⟨_, hg, rfl⟩
    have hlen := ((List.nodup_range' 1).subperm hsub).length_le
    simp only [List.length_range', List.length_map] at hlen
    simpa using Nat.lt_succ_of_le hlen

end GroupPool

namespace MemoryStore

variable {m : MemoryStore} {ps : List Policy}

theorem Valid.mem_assigned_iff (hm : m.Valid) (g : String) :
    g ∈ m.groups.byId.map (·.2) ↔ ∃ p ∈ m.policies, g ∈ p.ends := by
  have htags : m.tags.map (·.id) = m.groups.byId.map (·.2) := by
    rw [tags, List.map_map]
    rfl
  rw [← htags, hm.mem_tags_iff]
  simp only [Policy.ends, List.mem_cons, List.not_mem_nil, or_false, eq_comm]

theorem Valid.byId_without (hm : m.Valid) (ps : List Policy) :
    (m.without ps).groups.byId = m.groups.byId.filter fun e =>
      (m.without ps).policies.any (·.ends.contains e.2) := by
  refine List.filter_congr fun e he => ?_
  have hnamed := (hm.without ps).mem_assigned_iff e.2
  rw [Bool.eq_iff_iff, List.any_eq_true]
  simp only [List.contains_iff_mem]
  rw [← hnamed, List.mem_map]
  constructor
  · exact fun href => ⟨e, List.mem_filter.mpr ⟨he, href⟩, rfl⟩
  · rintro ⟨e', he', heq⟩
    obtain ⟨he', href⟩ := List.mem_filter.mp he'
    exact List.inj_on_of_nodup_map hm.groups.distinct he' he heq ▸ href

theorem Valid.tags_without (hm : m.Valid) (ps : List Policy) : (m.without ps).tags =
    m.tags.filter fun t => (m.without ps).policies.any (·.ends.contains t.id) := by
  rw [tags, tags, hm.byId_without, List.filter_map]
  rfl

theorem Valid.crowded_of_createOne_error (hm : m.Valid) {p : Policy} {e : StoreError}
    (h : m.createOne p = .error e) : Crowded m.groups.size (m.policies ++ p :: ps) := by
  have hstored : ∀ g ∈ m.groups.byId.map (·.2), ∃ q ∈ m.policies ++ p :: ps, g ∈ q.ends := by
    intro g hg
    obtain ⟨q, hq, hgq⟩ := (hm.mem_assigned_iff g).mp hg
    exact ⟨q, List.mem_append_left _ hq, hgq⟩
  have hp : p ∈ m.policies ++ p :: ps := List.mem_append_right _ List.mem_cons_self
  rcases createOne_error h with hi | ⟨i, q, hi, hj⟩
  · obtain ⟨hnodup, hlt⟩ := hm.groups.crowded_of_claim_error hi
    refine ⟨_, hnodup, hlt, fun g hg => ?_⟩
    rcases List.mem_cons.mp hg with rfl | hg
    · exact ⟨p, hp, List.mem_cons_self⟩
    · exact hstored g hg
  · have hq := GroupPool.claimed_of_claim hm.groups hi
    obtain ⟨hnodup, hlt⟩ := hq.valid.crowded_of_claim_error hj
    refine ⟨_, hnodup, hq.size ▸ hlt, fun g hg => ?_⟩
    rcases List.mem_cons.mp hg with rfl | hg
    · exact ⟨p, hp, List.mem_cons_of_mem _ List.mem_cons_self⟩
    · obtain ⟨e, he, rfl⟩ := List.mem_map.mp hg
      rcases (hq.mem_iff e).mp he with he | rfl
      · exact hstored _ (List.mem_map_of_mem he)
      · exact ⟨p, hp, List.mem_cons_self⟩

/-- What creations leave is named by what was there or by the batch, and the other way round. -/
theorem Valid.named_createAll (hm : m.Valid) {m' : MemoryStore}
    (h : ps.foldlM MemoryStore.createOne m = .ok m') (g : String) :
    (∃ p ∈ m'.policies, g ∈ p.ends) ↔ ∃ p ∈ m.policies ++ ps, g ∈ p.ends := by
  obtain ⟨-, -, -, hkeys⟩ := hm.createAll h
  have hmem : ∀ k, k ∈ m'.keys ↔ k ∈ (m.policies ++ ps).map Policy.key := by
    intro k
    rw [hkeys, mem_foldl_addKey, List.map_append, List.mem_append, List.mem_map (l := ps), keys]
  constructor
  · rintro ⟨p, hp, hg⟩
    obtain ⟨q, hq, hqp⟩ := List.mem_map.mp ((hmem p.key).mp (List.mem_map_of_mem hp))
    exact ⟨q, hq, ends_eq_of_key_eq hqp ▸ hg⟩
  · rintro ⟨p, hp, hg⟩
    obtain ⟨q, hq, hqp⟩ := List.mem_map.mp ((hmem p.key).mpr (List.mem_map_of_mem hp))
    exact ⟨q, hq, ends_eq_of_key_eq hqp ▸ hg⟩

/-- A batch of creations fails exactly if it makes the groups too few. -/
theorem Valid.createAll_error_iff (hm : m.Valid) :
    (∃ e, ps.foldlM MemoryStore.createOne m = .error e) ↔
      Crowded m.groups.size (m.policies ++ ps) := by
  constructor
  · rintro ⟨e, h⟩
    induction ps generalizing m with
    | nil => cases h
    | cons p ps ih =>
      rw [List.foldlM_cons] at h
      cases h1 : m.createOne p with
      | error e' => exact hm.crowded_of_createOne_error h1
      | ok u =>
        simp only [h1, bind, Except.bind] at h
        obtain ⟨hu, hext⟩ := hm.createOne h1
        obtain ⟨gs, hnodup, hlt, hgs⟩ := ih hu h
        refine ⟨gs, hnodup, hext.size ▸ hlt, fun g hg => ?_⟩
        obtain ⟨q, hq, hgq⟩ := hgs g hg
        rcases List.mem_append.mp hq with hq | hq
        · have hone : [p].foldlM MemoryStore.createOne m = .ok u := by
            rw [List.foldlM_cons, h1]
            rfl
          obtain ⟨r, hr, hgr⟩ := (hm.named_createAll hone g).mp ⟨q, hq, hgq⟩
          refine ⟨r, ?_, hgr⟩
          rw [List.mem_append, List.mem_cons]
          exact (List.mem_append.mp hr).imp_right fun hr => Or.inl (List.mem_singleton.mp hr)
        · exact ⟨q, List.mem_append_right _ (List.mem_cons_of_mem _ hq), hgq⟩
  · rintro ⟨gs, hnodup, hlt, hgs⟩
    cases h : ps.foldlM MemoryStore.createOne m with
    | error e => exact ⟨e, rfl⟩
    | ok m' =>
      -- a batch that succeeds gives all of them groups, which there are not
      obtain ⟨hm', hext, -, -⟩ := hm.createAll h
      have hsub : gs ⊆ m'.groups.byId.map (·.2) := fun g hg =>
        (hm'.mem_assigned_iff g).mpr ((hm.named_createAll h g).mpr (hgs g hg))
      have hlen := (hnodup.subperm hsub).length_le
      rw [List.length_map] at hlen
      have := hm'.groups.length_le
      have := hext.size
      omega

end MemoryStore
end NetworkPolicy
