import NetworkPolicy.Proofs.Store.Capacity
import NetworkPolicy.Proofs.Store.Opened

/-! Writes are atomic in every kind of store: a batch is carried out as a whole, or the call fails and
nothing that the store lists has changed. -/
namespace NetworkPolicy

/-! ### Whole batches -/

/-- What the listed policies become when a batch is carried out. Creating puts those behind the others
that are not stored yet, in the order of the batch. -/
def Write.Applied : Write → List Policy → List Policy → List Policy → Prop
  | .create, ps, old, new =>
    old <+: new ∧ new.map Policy.key = ps.foldl MemoryStore.addKey (old.map Policy.key)
  | .delete, ps, old, new => new = old.filter fun p => !(ps.map Policy.key).contains p.key

/-- The tags are one for each application that the policies name, and the policies carry them. -/
structure TagsOf (ps : List Policy) (tags : List Tag) : Prop where
  nodup : (tags.map (·.id)).Nodup
  mem_iff : ∀ g, g ∈ tags.map (·.id) ↔ ∃ p ∈ ps, g ∈ p.ends
  carried : ∀ p ∈ ps, ⟨p.source.id, p.source.tag⟩ ∈ tags ∧
    ⟨p.destination.id, p.destination.tag⟩ ∈ tags

namespace MemoryStore

variable {m m' : MemoryStore} {w : Write} {ps : List Policy}

theorem Valid.tagsOf (hm : m.Valid) : TagsOf m.policies m.tags where
  nodup := by
    rw [tags, List.map_map]
    exact hm.groups.distinct
  mem_iff := fun g => by
    rw [← hm.mem_assigned_iff, tags, List.map_map]
    rfl
  carried := fun p hp => hm.carriesTags hp

theorem Valid.applied (hm : m.Valid) (h : m.written w ps = .ok m') :
    w.Applied ps m.policies m'.policies := by
  cases w with
  | create =>
    obtain ⟨-, -, hkept, hkeys⟩ := hm.createAll h
    exact ⟨hkept, hkeys⟩
  | delete =>
    cases h
    exact hm.policies_without ps

/-- A batch finds no groups exactly if it is one of creations that makes them too few. -/
theorem Valid.written_error_iff (hm : m.Valid) : (∃ e, m.written w ps = .error e) ↔
    w = .create ∧ Crowded m.groups.size (m.policies ++ ps) := by
  cases w with
  | create => exact hm.createAll_error_iff.trans (and_iff_right rfl).symm
  | delete => exact iff_of_false (fun ⟨e, h⟩ => nomatch h) fun h => nomatch h.1

end MemoryStore

namespace OpenStore

/-! ### Failures -/

/-- How many groups the store has. -/
def groupCount : OpenStore → Nat
  | memory s => s.groups.size
  | sqlite s => s.server.tables.groups.length
  | postgres s => s.server.tables.groups.length

variable {o o' : OpenStore} {m : MemoryStore}

theorem groupCount_eq (h : standing.stands o m) : o.groupCount = m.groups.size := by
  have hrows : ∀ p : GroupPool, (Database.groupRows p).length = p.size := fun p => by
    rw [Database.groupRows, List.length_map, List.length_range']
  rcases o with s | s | s
  · exact congrArg (·.groups.size) h.1
  · exact (congrArg List.length h.represents.groups).trans (hrows _)
  · exact (congrArg List.length h.represents.groups).trans (hrows _)

/-- The points at which a write on `o` fails that leaves `o'`. -/
inductive Fails (o o' : OpenStore) (w : Write) (ps : List Policy) (limit : Option TimeLimit) :
    Prop where
  /-- The server refused a statement of the transaction, or its begin or its commit. -/
  | refused : standing.refused o o' → Fails o o' w ps limit
  /-- The time was up before the batch, where the store looks at it then. -/
  | early {l : TimeLimit} : limit = some l → standing.early o l = true → Fails o o' w ps limit
  /-- The time was up when the batch was to be committed. -/
  | late {l : TimeLimit} : limit = some l → l.isUp = true → Fails o o' w ps limit
  /-- An application of the batch found no free group. -/
  | full {old : List Policy} : w = .create → o.policies = .ok old →
      Crowded o.groupCount (old ++ ps) → Fails o o' w ps limit

/-- Where nothing was refused, a write fails exactly if it would in memory. -/
theorem fails_iff (hs : standing.stands o m) (hq : ¬ standing.refused o o') {w : Write}
    {ps : List Policy} {limit : Option TimeLimit} :
    o.Fails o' w ps limit ↔ ∃ k, m.attempt w ps (limit.any (standing.early o))
      (limit.any TimeLimit.isUp) = .error k := by
  rw [MemoryStore.attempt_eq_error, (standing.valid hs).written_error_iff, Option.any_eq_true,
    Option.any_eq_true]
  constructor
  · rintro (hr | ⟨hl, hup⟩ | ⟨hl, hup⟩ | ⟨hw, hold, hfull⟩)
    · exact absurd hr hq
    · exact Or.inl ⟨_, hl, hup⟩
    · exact Or.inr (Or.inl ⟨_, hl, hup⟩)
    · cases (policies_eq hs).symm.trans hold
      exact Or.inr (Or.inr ⟨hw, groupCount_eq hs ▸ hfull⟩)
  · rintro (⟨l, hl, hup⟩ | ⟨l, hl, hup⟩ | ⟨hw, hfull⟩)
    · exact .early hl hup
    · exact .late hl hup
    · exact .full hw (policies_eq hs) (groupCount_eq hs ▸ hfull)

theorem fails_of_error (hs : standing.stands o m) {w : Write} {ps : List Policy}
    {limit : Option TimeLimit} {e : StoreError} (h : store.write w ps limit o = (.error e, o')) :
    o.Fails o' w ps limit := by
  have hended := h ▸ realizes.write hs w ps limit
  cases hended with
  | failed hideal _ _ =>
    by_cases hq : standing.refused o o'
    · exact .refused hq
    · exact (fails_iff hs hq).mpr ⟨_, hideal⟩
  | refused hr _ _ => exact .refused hr

/-- In every reachable state a write fails exactly at one of the points of failure, and then what the
store lists is what it was; else the whole batch has been carried out. -/
theorem write_atomic (ho : o.Reachable) (w : Write) (ps : List Policy) (limit : Option TimeLimit) :
    ∃ old tags, o.policies = .ok old ∧ o.tags = .ok tags ∧
      match store.write w ps limit o with
      | (.error _, o') => o.Fails o' w ps limit ∧ o'.policies = .ok old ∧ o'.tags = .ok tags
      | (.ok (), o') => ¬ o.Fails o' w ps limit ∧ ∃ new tags', o'.policies = .ok new ∧
        o'.tags = .ok tags' ∧ w.Applied ps old new ∧ TagsOf new tags' := by
  obtain ⟨m, hs⟩ := ho.stands
  have hm := standing.valid hs
  have hended := realizes.write hs w ps limit
  refine ⟨m.policies, m.tags, policies_eq hs, tags_eq hs, ?_⟩
  generalize store.write w ps limit o = x at hended ⊢
  cases hended with
  | @done _ m' o' hideal _ hq hs' =>
    obtain ⟨-, -, hwritten⟩ := MemoryStore.attempt_eq_ok.mp hideal
    refine ⟨fun hfails => ?_, m'.policies, m'.tags, policies_eq hs', tags_eq hs', hm.applied hwritten,
      (standing.valid hs').tagsOf⟩
    obtain ⟨k, hk⟩ := (fails_iff hs hq).mp hfails
    exact nomatch hideal.symm.trans hk
  | @failed e o' hideal _ hs' =>
    refine ⟨?_, policies_eq hs', tags_eq hs'⟩
    by_cases hq : standing.refused o o'
    · exact .refused hq
    · exact (fails_iff hs hq).mpr ⟨_, hideal⟩
  | refused hr _ hs' => exact ⟨.refused hr, policies_eq hs', tags_eq hs'⟩

/-- The second policy of a batch finds no group: the first is not listed either. -/
theorem write_atomic_two_groups :
    (memory (.empty .oneByte 2)).Reachable ∧
      ∃ o', store.write .create [⟨⟨"a", ""⟩, ⟨"b", "", "tcp", ⟨80, 81⟩⟩⟩,
          ⟨⟨"a", ""⟩, ⟨"c", "", "tcp", ⟨80, 81⟩⟩⟩] none (memory (.empty .oneByte 2)) =
            (.error (.capacity "group pool exhausted"), o') ∧
        o'.policies = .ok [] ∧ o'.tags = .ok [] := by
  have ho : (memory (.empty .oneByte 2)).Reachable := .memory .oneByte 2
  obtain ⟨old, tags, hold, htags, h⟩ := write_atomic ho .create
    [⟨⟨"a", ""⟩, ⟨"b", "", "tcp", ⟨80, 81⟩⟩⟩, ⟨⟨"a", ""⟩, ⟨"c", "", "tcp", ⟨80, 81⟩⟩⟩] none
  cases hold
  cases htags
  exact ⟨ho, _, rfl, h.2⟩

end OpenStore
end NetworkPolicy
