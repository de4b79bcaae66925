import NetworkPolicy.Proofs.Store.Undisturbed

/-! Queries by applications: each kind of store has its own way to find the policies, and all of them
find those that a look through the list would. -/
namespace NetworkPolicy.OpenStore

variable {o : OpenStore}

/-- In every reachable state, a query gives just those of the listed policies that have their source
among the first names or their destination among the others, as they are listed and each once. It fails
only when a request of it is refused, and it changes nothing. -/
theorem byGuids_exact (ho : o.Reachable) (sources destinations : List String) :
    ∃ ps, o.policies = .ok ps ∧ (ps.map Policy.key).Nodup ∧
      let found := ps.filter fun p => p.source.id ∈ sources ∨ p.destination.id ∈ destinations
      (store.byGuids sources destinations o.unhindered).1 = .ok found ∧
      ∀ r o', store.byGuids sources destinations o = (r, o') → o'.ListsAs o ∧
        (¬ standing.refused o o' → r = .ok found) ∧
        (standing.refused o o' → ∃ e, r = .error e) := by
  obtain ⟨m, hs⟩ := ho.stands
  have hm := standing.valid hs
  have hfound : (m.policies.filter fun p =>
      sources.contains p.source.id || destinations.contains p.destination.id) =
      m.policies.filter fun p => p.source.id ∈ sources ∨ p.destination.id ∈ destinations := by
    refine List.filter_congr fun p _ => ?_
    rw [Bool.eq_iff_iff, Bool.or_eq_true, List.contains_iff_mem, List.contains_iff_mem,
      decide_eq_true_iff]
  have hidle := realizes.byGuids (stands_unhindered hs) sources destinations
  have hended := realizes.byGuids hs sources destinations
  rw [hfound] at hidle hended
  refine ⟨m.policies, policies_eq hs, hm.keys_nodup, ended_unhindered hidle, ?_⟩
  intro r o' hcall
  rw [hcall] at hended
  cases hended with
  | done hideal _ hq hs' =>
    cases hideal
    exact ⟨listsAs hs' hs, fun _ => rfl, fun hr => absurd hr hq⟩
  | failed hideal => cases hideal
  | refused hr _ hs' => exact ⟨listsAs hs' hs, fun hq => absurd hr hq, fun _ => ⟨_, rfl⟩⟩

/-- Queries of a database file: lists of different lengths, with a name that occurs twice and names
that no policy has, and an empty list. -/
theorem byGuids_exact_four_policies :
    let p : String → String → Policy := fun a b => ⟨⟨a, ""⟩, ⟨b, "", "tcp", ⟨80, 81⟩⟩⟩
    let s := (SqliteStore.openOn .oneByte 4 {}).2
    let o := (store.answers [.write .create [p "a" "b", p "b" "c", p "c" "a", p "c" "b"] none]
      (sqlite s)).2
    o.Reachable ∧
      (store.byGuids ["b", "", "b"] ["a"] o.unhindered).1 =
        .ok [⟨⟨"b", "02"⟩, ⟨"c", "03", "tcp", ⟨80, 81⟩⟩⟩, ⟨⟨"c", "03"⟩, ⟨"a", "01", "tcp", ⟨80, 81⟩⟩⟩] ∧
      (store.byGuids [] ["d", "b"] o.unhindered).1 =
        .ok [⟨⟨"a", "01"⟩, ⟨"b", "02", "tcp", ⟨80, 81⟩⟩⟩,
          ⟨⟨"c", "03"⟩, ⟨"b", "02", "tcp", ⟨80, 81⟩⟩⟩] := by
  intro p s o
  have hstart : (SqliteStore.openOn .oneByte 4 {}).1 = .ok () :=
    SqliteStore.openOn_fresh_eq_ok.mpr (by decide)
  have hopened : (sqlite s).Reachable :=
    .sqlite rfl (Or.inr fun _ => ⟨rfl, rfl⟩) (Prod.ext hstart rfl)
  have ho : o.Reachable := hopened.answers _
  -- the kernel does not compute the groups that are added, so they are stated
  have hgroups := SqliteStore.tables_openOn_fresh .oneByte (n := 4) (by decide)
  have hfresh : s = ⟨.oneByte, { tables := s.server.tables, sent := s.server.sent }⟩ := rfl
  have hlisted : o.policies = .ok [⟨⟨"a", "01"⟩, ⟨"b", "02", "tcp", ⟨80, 81⟩⟩⟩,
      ⟨⟨"b", "02"⟩, ⟨"c", "03", "tcp", ⟨80, 81⟩⟩⟩, ⟨⟨"c", "03"⟩, ⟨"a", "01", "tcp", ⟨80, 81⟩⟩⟩,
      ⟨⟨"c", "03"⟩, ⟨"b", "02", "tcp", ⟨80, 81⟩⟩⟩] := by
    change (store.answers _ (sqlite s)).2.policies = _
    rw [hfresh, hgroups]
    decide +kernel
  obtain ⟨ps, hps, -, hfirst, -⟩ := byGuids_exact ho ["b", "", "b"] ["a"]
  obtain ⟨qs, hqs, -, hsecond, -⟩ := byGuids_exact ho [] ["d", "b"]
  cases hlisted.symm.trans hps
  cases hlisted.symm.trans hqs
  refine ⟨ho, hfirst.trans ?_, hsecond.trans ?_⟩
  · decide +kernel
  · decide +kernel

end NetworkPolicy.OpenStore
