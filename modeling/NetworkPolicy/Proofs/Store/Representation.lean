import Mathlib.Data.List.Forall2
import NetworkPolicy.Proofs.Store.Tables

/-! Tables that hold what a store in memory holds. Destinations are rows of their own there, which
policies share; each has at least one policy, so that none is left behind by a deletion. -/
namespace NetworkPolicy.Database

/-- What a destination row says. -/
def DestinationRow.content (d : DestinationRow) : Int × Int × Int × String :=
  (d.group, d.first, d.last, d.protocol)

/-- What the destination of a row in memory says. -/
def destinationContent (r : MemoryRow) : Int × Int × Int × String :=
  (r.destination, r.ports.first.toNat, r.ports.last.toNat, r.protocol)

theorem row_eq_iff {r r' : MemoryRow} :
    r = r' ↔ r.source = r'.source ∧ destinationContent r = destinationContent r' := by
  constructor
  · rintro rfl
    exact ⟨rfl, rfl⟩
  · rintro ⟨hsource, h⟩
    simp only [destinationContent, Prod.mk.injEq, Int.ofNat_inj, UInt16.toNat_inj] at h
    obtain ⟨hdestination, hfirst, hlast, hprotocol⟩ := h
    rcases r with ⟨_, _, _, _, _⟩
    rcases r' with ⟨_, _, _, _, _⟩
    simp only [MemoryRow.mk.injEq, Ports.mk.injEq]
    exact ⟨hsource, hdestination, hprotocol, hfirst, hlast⟩

namespace Tables

variable {ε : Type} {t : Tables} {s : MemoryStore} {p : Policy}

/-- A policy's row in the tables says the same as a row in memory. -/
def Shows (t : Tables) (p : PolicyRow) (r : MemoryRow) : Prop :=
  p.group = r.source ∧
    ∃ d ∈ t.destinations, d.id = p.destination ∧ d.content = destinationContent r

/-- The tables hold the groups and the policies of a store in memory, in the same order. -/
structure Mirrors (t : Tables) (s : MemoryStore) : Prop where
  groups : t.groups = groupRows s.groups
  rows : List.Forall₂ t.Shows t.policies s.rows
  /-- Ids of destinations are distinct, and below those still to be given. -/
  ids : (t.destinations.map (·.id)).Nodup
  fresh : ∀ d ∈ t.destinations, d.id < t.nextDestination
  contents : (t.destinations.map DestinationRow.content).Nodup

/-- Moreover, a policy leads to each destination. -/
structure Represents (t : Tables) (s : MemoryStore) : Prop extends Mirrors t s where
  used : ∀ d ∈ t.destinations, ∃ p ∈ t.policies, p.destination = d.id

theorem Represents.withGroups (h : t.Represents s) (q : GroupPool) :
    { t with groups := groupRows q }.Represents { s with groups := q } :=
  ⟨⟨rfl, h.rows, h.ids, h.fresh, h.contents⟩, h.used⟩

theorem destination?_eq_some (h : (t.destinations.map (·.id)).Nodup) {id : Int}
    {d : DestinationRow} : t.destination? id = some d ↔ d ∈ t.destinations ∧ d.id = id :=
  find?_key_eq_some h

/-- The destination found for a policy is the one that says what the policy's row says. -/
theorem destinationFor?_eq_some (h : (t.destinations.map DestinationRow.content).Nodup) (i j : Nat)
    {id : Int} :
    t.destinationFor? j p.destination = some id ↔ ∃ d ∈ t.destinations,
      d.content = destinationContent (MemoryStore.rowOf i j p) ∧ d.id = id := by
  have hfind : t.destinationFor? j p.destination = (t.destinations.find? fun d =>
      d.content == destinationContent (MemoryStore.rowOf i j p)).map (·.id) := by
    simp only [destinationFor?, destinationOf?, Bool.and_assoc]
    rfl
  rw [hfind, Option.map_eq_some_iff]
  simp only [find?_key_eq_some h, and_assoc]

/-- Rows show the same row exactly if they agree on the source's group and the destination. -/
theorem Mirrors.eq_iff (h : t.Mirrors s) {p : PolicyRow} {r row : MemoryRow} {d : DestinationRow}
    (hp : t.Shows p r) (hd : d ∈ t.destinations) (hrow : d.content = destinationContent row) :
    p.group = row.source ∧ p.destination = d.id ↔ r = row := by
  obtain ⟨hsource, e, he, heid, hcontent⟩ := hp
  rw [row_eq_iff, hsource, Int.ofNat_inj, ← heid, ← hcontent, ← hrow]
  refine and_congr_right fun _ => ⟨fun hid => ?_, fun hc => ?_⟩
  · exact congrArg _ (List.inj_on_of_nodup_map h.ids he hd hid)
  · exact congrArg _ (List.inj_on_of_nodup_map h.contents he hd hc)

/-! ### Creating -/

theorem Shows.mono {u : Tables} {p : PolicyRow} {r : MemoryRow} (h : t.Shows p r)
    (hsub : ∀ d ∈ t.destinations, d ∈ u.destinations) : u.Shows p r := by
  obtain ⟨hsource, d, hd, h⟩ := h
  exact ⟨hsource, d, hsub d hd, h⟩

/-- The destination of a policy is there once it is asked for, and no other is new. -/
theorem Represents.ensureDestination (h : t.Represents s) (i j : Nat) (p : Policy) :
    ∃ d u, t.ensureDestination j p.destination = (d.id, u) ∧ u.Mirrors s ∧
      u.policies = t.policies ∧ d ∈ u.destinations ∧
      d.content = destinationContent (MemoryStore.rowOf i j p) ∧
      ∀ e ∈ u.destinations, e ∈ t.destinations ∨ e = d := by
  unfold Tables.ensureDestination
  cases hfound : t.destinationFor? j p.destination with
  | some id =>
    obtain ⟨d, hd, hcontent, rfl⟩ := (destinationFor?_eq_some h.contents i j).mp hfound
    exact ⟨d, t, rfl, h.toMirrors, rfl, hd, hcontent, fun e he => Or.inl he⟩
  | none =>
    let d : DestinationRow := ⟨t.nextDestination, j, p.destination.ports.first.toNat,
      p.destination.ports.last.toNat, p.destination.protocol⟩
    have hid : ∀ e ∈ t.destinations, e.id ≠ d.id := fun e he => Int.ne_of_lt (h.fresh e he)
    have hcontent : ∀ e ∈ t.destinations, e.content ≠ d.content := fun e he hc =>
      Option.some_ne_none e.id
        (((destinationFor?_eq_some h.contents i j).mpr ⟨e, he, hc, rfl⟩).symm.trans hfound)
    refine ⟨d, _, rfl, ⟨h.groups, ?_, ?_, ?_, ?_⟩, rfl, List.mem_append_right _
      (List.mem_singleton.mpr rfl), rfl, fun e he => ?_⟩
    · exact h.rows.imp fun _ _ hpr => hpr.mono fun e he => List.mem_append_left _ he
    · change ((t.destinations ++ [d]).map (·.id)).Nodup
      rw [List.map_append, List.map_singleton]
      refine List.nodup_append.mpr ⟨h.ids, List.nodup_singleton _, fun a ha b hb => ?_⟩
      obtain ⟨e, he, rfl⟩ := List.mem_map.mp ha
      exact List.mem_singleton.mp hb ▸ hid e he
    · intro e he
      change e.id < t.nextDestination + 1
      rcases List.mem_append.mp he with he | he
      · exact Int.lt_add_one_of_le (Int.le_of_lt (h.fresh e he))
      · rw [List.mem_singleton.mp he]
        exact Int.lt_succ t.nextDestination
    · change ((t.destinations ++ [d]).map DestinationRow.content).Nodup
      rw [List.map_append, List.map_singleton]
      refine List.nodup_append.mpr ⟨h.contents, List.nodup_singleton _, fun a ha b hb => ?_⟩
      obtain ⟨e, he, rfl⟩ := List.mem_map.mp ha
      exact List.mem_singleton.mp hb ▸ hcontent e he
    · exact (List.mem_append.mp he).imp_right List.mem_singleton.mp

theorem Mirrors.addPolicy (h : t.Mirrors s) {row : MemoryRow} {d : DestinationRow}
    (hd : d ∈ t.destinations) (hrow : d.content = destinationContent row)
    (hused : ∀ e ∈ t.destinations, (∃ p ∈ t.policies, p.destination = e.id) ∨ e = d) :
    (t.addPolicy row.source d.id).Represents
      { s with rows := if s.rows.contains row then s.rows else s.rows ++ [row] } := by
  have hany : (t.policies.any fun p => p.group == row.source && p.destination == d.id) =
      s.rows.contains row := by
    rw [List.contains_eq_any_beq]
    refine any_eq_of_forall₂ h.rows fun p r hpr => ?_
    rw [Bool.eq_iff_iff, Bool.and_eq_true, beq_iff_eq, beq_iff_eq, beq_iff_eq,
      h.eq_iff hpr hd hrow, eq_comm]
  unfold Tables.addPolicy
  rw [hany]
  split_ifs with hc
  · refine ⟨⟨h.groups, h.rows, h.ids, h.fresh, h.contents⟩, fun e he => ?_⟩
    rcases hused e he with hp | rfl
    · exact hp
    · rw [← hany] at hc
      obtain ⟨p, hp, hpd⟩ := List.any_eq_true.mp hc
      rw [Bool.and_eq_true, beq_iff_eq, beq_iff_eq] at hpd
      exact ⟨p, hp, hpd.2⟩
  · refine ⟨⟨h.groups, ?_, h.ids, h.fresh, h.contents⟩, fun e he => ?_⟩
    · exact List.rel_append h.rows (.cons ⟨rfl, d, hd, rfl, hrow⟩ .nil)
    · rcases hused e he with ⟨p, hp, hpd⟩ | rfl
      · exact ⟨p, List.mem_append_left _ hp, hpd⟩
      · exact ⟨_, List.mem_append_right _ (List.mem_singleton.mpr rfl), rfl⟩

/-- Creating a policy does on the tables what it does in memory, and fails where it fails there. -/
theorem Represents.createOne (h : t.Represents s) (hg : s.groups.Valid) (full : ε) (p : Policy) :
    (∀ s', s.createOne p = .ok s' → ∃ t', t.createOne full p = .ok t' ∧ t'.Represents s') ∧
    ∀ e, s.createOne p = .error e → t.createOne full p = .error full := by
  unfold MemoryStore.createOne Tables.createOne
  rw [claim_eq h.groups hg]
  cases hi : s.groups.claim p.source.id with
  | error e => exact ⟨fun s' hs' => by simp [bind, Except.bind] at hs', fun _ _ => rfl⟩
  | ok a =>
    obtain ⟨i, q⟩ := a
    have hq := (GroupPool.claimed_of_claim hg hi).valid
    have h1 := h.withGroups q
    simp only [bind, Except.bind]
    rw [claim_eq h1.groups hq]
    cases hj : q.claim p.destination.id with
    | error e => exact ⟨fun s' hs' => by simp at hs', fun _ _ => rfl⟩
    | ok b =>
      obtain ⟨j, q'⟩ := b
      have h2 := h.withGroups q'
      obtain ⟨d, u, heq, hu, hpolicies, hd, hrow, hnew⟩ := h2.ensureDestination i j p
      simp only [heq]
      refine ⟨fun s' hs' => ⟨_, rfl, ?_⟩, fun e he => by simp [pure, Except.pure] at he⟩
      simp only [pure, Except.pure, Except.ok.injEq] at hs'
      subst hs'
      refine hu.addPolicy hd hrow fun e he => ?_
      rw [hpolicies]
      exact (hnew e he).imp_left (h2.used e)

theorem Represents.createAll (h : t.Represents s) (hs : s.Valid) (full : ε) (ps : List Policy) :
    (∀ s', ps.foldlM MemoryStore.createOne s = .ok s' →
      ∃ t', ps.foldlM (Tables.createOne full) t = .ok t' ∧ t'.Represents s') ∧
    ∀ e, ps.foldlM MemoryStore.createOne s = .error e →
      ps.foldlM (Tables.createOne full) t = .error full := by
  induction ps generalizing s t with
  | nil =>
    refine ⟨?_, fun e he => nomatch he⟩
    rintro s' ⟨⟩
    exact ⟨t, rfl, h⟩
  | cons p ps ih =>
    rw [List.foldlM_cons, List.foldlM_cons]
    obtain ⟨hok, herror⟩ := h.createOne hs.groups full p
    cases h1 : s.createOne p with
    | error e =>
      rw [herror e h1]
      exact ⟨fun _ hs' => absurd hs' (by simp [bind, Except.bind]), fun _ _ => rfl⟩
    | ok u =>
      obtain ⟨v, hv, hvu⟩ := hok u h1
      rw [hv]
      exact ih hvu (hs.createOne h1).1

/-! ### Deleting -/

/-- Removing a policy, and its destination if it was the last there, removes the row that says the
same. -/
theorem Represents.remove (h : t.Represents s) {row : MemoryRow} {d : DestinationRow}
    (hd : d ∈ t.destinations) (hrow : d.content = destinationContent row) :
    ((t.removePolicy row.source d.id).removeUnusedDestination d.id).Represents
      { s with rows := s.rows.filter (· != row) } := by
  have hrows : List.Forall₂ t.Shows (t.removePolicy row.source d.id).policies
      (s.rows.filter (· != row)) := by
    refine List.rel_filter (fun p r hpr => ?_) h.rows
    change (!(p.group == row.source && p.destination == d.id)) = true ↔ (r != row) = true
    rw [bne_iff_ne, ne_eq, ← h.eq_iff hpr hd hrow, Bool.not_eq_true', ← Bool.not_eq_true,
      Bool.and_eq_true, beq_iff_eq, beq_iff_eq]
  have hused : ∀ e ∈ t.destinations, e.id ≠ d.id →
      ∃ p ∈ (t.removePolicy row.source d.id).policies, p.destination = e.id := by
    intro e he hne
    obtain ⟨p, hp, hpe⟩ := h.used e he
    exact ⟨p, List.mem_filter.mpr ⟨hp, by simp [hpe, hne]⟩, hpe⟩
  unfold removeUnusedDestination
  split_ifs with hany
  · refine ⟨⟨h.groups, hrows, h.ids, h.fresh, h.contents⟩, fun e he => ?_⟩
    by_cases hne : e.id = d.id
    · obtain ⟨p, hp, hpd⟩ := List.any_eq_true.mp hany
      exact ⟨p, hp, (beq_iff_eq.mp hpd).trans hne.symm⟩
    · exact hused e he hne
  · have hleft : ∀ p ∈ (t.removePolicy row.source d.id).policies, p.destination ≠ d.id :=
      fun p hp hpd => hany (List.any_eq_true.mpr ⟨p, hp, beq_iff_eq.mpr hpd⟩)
    refine ⟨⟨h.groups, ?_, h.ids.sublist (List.filter_sublist.map _), fun e he =>
      h.fresh e (List.mem_of_mem_filter he), h.contents.sublist (List.filter_sublist.map _)⟩,
      fun e he => ?_⟩
    · refine ((List.forall₂_and_left _ _).mpr ⟨hleft, hrows⟩).imp ?_
      rintro p r ⟨hne, hsource, e, he, hep, hcontent⟩
      exact ⟨hsource, e, List.mem_filter.mpr ⟨he, bne_iff_ne.mpr (hep ▸ hne)⟩, hep, hcontent⟩
    · obtain ⟨he, hne⟩ := List.mem_filter.mp he
      exact hused e he (bne_iff_ne.mp hne)

theorem Mirrors.exists_row (h : t.Mirrors s) {p : PolicyRow} (hp : p ∈ t.policies) :
    ∃ r ∈ s.rows, t.Shows p r :=
  exists_mem_of_forall₂ h.rows p hp

theorem Mirrors.exists_policy (h : t.Mirrors s) {r : MemoryRow} (hr : r ∈ s.rows) :
    ∃ p ∈ t.policies, t.Shows p r :=
  exists_mem_of_forall₂ h.rows.flip r hr

theorem Mirrors.exists_destination (h : t.Mirrors s) {r : MemoryRow} (hr : r ∈ s.rows) :
    ∃ d ∈ t.destinations, d.content = destinationContent r := by
  obtain ⟨p, -, -, d, hd, -, hcontent⟩ := h.exists_policy hr
  exact ⟨d, hd, hcontent⟩

/-- Deleting a policy does on the tables what it does in memory, and touches the groups of every row
that it removes. -/
theorem Represents.deleteOne (h : t.Represents s) (hg : s.groups.Valid) (hs : s.Named) (p : Policy) :
    (Tables.deleteOne p t).2.Represents (s.withoutRow p) ∧
      ∀ r ∈ s.rows, (s.policyOf r).key = p.key →
        (r.source : Int) ∈ (Tables.deleteOne p t).1 ∧
          (r.destination : Int) ∈ (Tables.deleteOne p t).1 := by
  have hkey := fun r (hr : r ∈ s.rows) => MemoryStore.key_eq_iff (p := p) hg hs hr
  have hnone : (∀ r ∈ s.rows, (s.policyOf r).key ≠ p.key) →
      t.Represents (s.withoutRow p) ∧ ∀ r ∈ s.rows, (s.policyOf r).key = p.key →
        (r.source : Int) ∈ ([] : List Int) ∧ (r.destination : Int) ∈ ([] : List Int) := fun hno =>
    ⟨(MemoryStore.withoutRow_eq_self hno).symm ▸ h, fun r hr hk => absurd hk (hno r hr)⟩
  unfold Tables.deleteOne
  rw [groupOf?_eq h.groups hg, groupOf?_eq h.groups hg]
  cases hi : s.groups.idOf? p.source.id with
  | none => exact hnone fun r hr hk => Option.some_ne_none _ (hi ▸ ((hkey r hr).mp hk).1).symm
  | some i =>
    cases hj : s.groups.idOf? p.destination.id with
    | none => exact hnone fun r hr hk => Option.some_ne_none _ (hj ▸ ((hkey r hr).mp hk).2.1).symm
    | some j =>
      have hrow : ∀ r ∈ s.rows, (s.policyOf r).key = p.key → r = MemoryStore.rowOf i j p := by
        intro r hr hk
        obtain ⟨hri, hrj, hrow⟩ := (hkey r hr).mp hk
        rw [hi, Option.some.injEq] at hri
        rw [hj, Option.some.injEq] at hrj
        exact hri ▸ hrj ▸ hrow.symm
      simp only [Option.map_some]
      cases hd : t.destinationFor? j p.destination with
      | none =>
        -- no row in memory has the key either, so it does not matter that its groups are touched there
        refine hnone fun r hr hk => ?_
        obtain ⟨d, hd', hcontent⟩ := h.exists_destination hr
        have hsome := (destinationFor?_eq_some h.contents i j).mpr
          ⟨d, hd', hrow r hr hk ▸ hcontent, rfl⟩
        exact Option.some_ne_none _ (hsome.symm.trans hd)
      | some id =>
        obtain ⟨d, hd', hcontent, rfl⟩ := (destinationFor?_eq_some h.contents i j).mp hd
        refine ⟨MemoryStore.withoutRow_eq hg hs hi hj ▸ h.remove hd' hcontent, fun r hr hk => ?_⟩
        rw [hrow r hr hk]
        simp [MemoryStore.rowOf]

theorem mem_increasing {id : Int} {ids : List Int} : id ∈ increasing ids ↔ id ∈ ids := by
  rw [increasing, mem_eraseRepsBy, List.mem_mergeSort]

theorem Represents.deleteRows (h : t.Represents s) (hg : s.groups.Valid) (hs : s.Named)
    (ps : List Policy) :
    (Session.mapEffect Tables.deleteOne ps t).2.Represents (s.withoutRows ps) ∧
      s.Touched ps fun i =>
        (i : Int) ∈ (Session.mapEffect Tables.deleteOne ps t).1.flatten := by
  induction ps generalizing s t with
  | nil => exact ⟨s.withoutRows_nil.symm ▸ h, fun _ _ h => absurd h List.not_mem_nil⟩
  | cons p ps ih =>
    obtain ⟨hrow, htouched⟩ := h.deleteOne hg hs p
    obtain ⟨hrest, htouched'⟩ := ih hrow hg (hs.withoutRow p)
    simp only [Session.mapEffect, List.flatten_cons, List.mem_append]
    exact ⟨s.withoutRows_cons p ps ▸ hrest, .cons htouched htouched'⟩

theorem Mirrors.references_eq (h : t.Mirrors s) (i : Nat) : t.references i = s.references i := by
  refine any_eq_of_forall₂ h.rows fun p r hpr => ?_
  obtain ⟨hsource, d, hd, hid, hcontent⟩ := hpr
  have hgroup : d.group = r.destination := congrArg Prod.fst hcontent
  simp only [(destination?_eq_some h.ids).mpr ⟨hd, hid⟩, hsource, hgroup]
  rw [Bool.eq_iff_iff]
  simp only [Bool.or_eq_true, beq_iff_eq, Int.natCast_inj]

/-- Deleting a batch leaves tables that hold what the store in memory holds without it. -/
theorem Represents.deleteAll (h : t.Represents s) (hs : s.Valid) (ps : List Policy) :
    (Tables.deleteAll ps t).Represents (s.without ps) := by
  obtain ⟨hrows, htouched⟩ := h.deleteRows hs.groups hs.named ps
  unfold Tables.deleteAll
  generalize Session.mapEffect Tables.deleteOne ps t = r at hrows htouched ⊢
  obtain ⟨touched, u⟩ := r
  have hgroups := @MemoryStore.Valid.restrict_eq s ps hs
    (fun i => (increasing touched.flatten).contains (i : Int)) fun r hr hk => by
      simpa only [List.contains_iff_mem, mem_increasing] using htouched r hr hk
  change ((increasing touched.flatten).foldl release u).Represents _
  rw [foldl_release_eq hrows.groups hs.groups]
  simp only [hrows.references_eq]
  exact hgroups ▸ hrows.withGroups _

end Tables
end NetworkPolicy.Database
