import Mathlib.Data.Finset.Card
import NetworkPolicy.Proofs.Store.Served

/-! Whether the free groups of some tables suffice for a batch of creations: exactly if it names no more
applications without a group than there are free groups. -/
namespace NetworkPolicy.Database.Tables

variable {ε : Type} {full : ε} {t t' : Tables} {g : String} {gs : Finset String} {id : Int}

/-- The number of groups that no application has. -/
def vacant (t : Tables) : Nat := t.groups.countP (·.guid.isNone)

/-- Those of the applications that have no group. -/
def unassigned (t : Tables) (gs : Finset String) : Finset String :=
  gs.filter fun g => t.groupOf? g = none

/-- There is a free group for each of the applications that has none. -/
def Suffices (t : Tables) (gs : Finset String) : Prop := (t.unassigned gs).card ≤ t.vacant

/-- No two groups have the same id. -/
def Numbered (t : Tables) : Prop := (t.groups.map (·.id)).Nodup

theorem suffices_congr (h : t'.groups = t.groups) : t'.Suffices gs ↔ t.Suffices gs := by
  unfold Suffices unassigned vacant groupOf?
  rw [h]

/-! ### One application -/

theorem map_setGroup_eq_self {rows : List GroupRow} {guid : Option String}
    (h : ∀ r ∈ rows, r.id ≠ id) :
    (rows.map fun r => if r.id = id then { r with guid := guid } else r) = rows := by
  have hsame : ∀ r ∈ rows, (if r.id = id then { r with guid := guid } else r) = r :=
    fun r hr => if_neg (h r hr)
  rw [List.map_congr_left hsame, List.map_id']

/-- A free group is one row, and an assignment of it changes no other. -/
theorem exists_free_row (ht : t.Numbered) (hfree : t.freeGroup? = some id) :
    ∃ front rest, t.groups = front ++ ⟨id, none⟩ :: rest ∧
      ∀ guid, (t.setGroup id guid).groups = front ++ ⟨id, guid⟩ :: rest := by
  obtain ⟨r, hr, rfl⟩ := Option.map_eq_some_iff.mp hfree
  obtain ⟨hnone, front, rest, hgroups, -⟩ := List.find?_eq_some_iff_append.mp hr
  have hrow : r = ⟨r.id, none⟩ := by rw [← Option.isNone_iff_eq_none.mp hnone]
  unfold Numbered at ht
  rw [hgroups, List.map_append, List.map_cons] at ht
  obtain ⟨-, hcons, hdisjoint⟩ := List.nodup_append.mp ht
  have hfront : ∀ r' ∈ front, r'.id ≠ r.id := fun r' hr' =>
    hdisjoint _ (List.mem_map_of_mem hr') _ List.mem_cons_self
  have hrest : ∀ r' ∈ rest, r'.id ≠ r.id := fun r' hr' hid =>
    (List.nodup_cons.mp hcons).1 (List.mem_map.mpr ⟨r', hr', hid⟩)
  refine ⟨front, rest, hrow ▸ hgroups, fun guid => ?_⟩
  unfold setGroup
  rw [hgroups, List.map_append, List.map_cons, map_setGroup_eq_self hfront,
    map_setGroup_eq_self hrest, if_pos rfl]

theorem numbered_setGroup (ht : t.Numbered) (guid : Option String) :
    (t.setGroup id guid).Numbered := by
  have hids : (t.setGroup id guid).groups.map (·.id) = t.groups.map (·.id) := by
    rw [setGroup, List.map_map]
    refine List.map_congr_left fun r _ => ?_
    dsimp only [Function.comp_apply]
    split_ifs <;> rfl
  unfold Numbered
  rwa [hids]

/-- An application that gets a free group takes it from the others. -/
theorem suffices_setGroup (ht : t.Numbered) (hnew : t.groupOf? g = none)
    (hfree : t.freeGroup? = some id) :
    (t.setGroup id (some g)).Suffices gs ↔ t.Suffices (insert g gs) := by
  obtain ⟨front, rest, hgroups, hset⟩ := exists_free_row ht hfree
  have hvacant : t.vacant = (t.setGroup id (some g)).vacant + 1 := by
    unfold vacant
    rw [hgroups, hset]
    simp only [List.countP_append, List.countP_cons, Option.isNone_none, Option.isNone_some]
    simp only [if_true, Bool.false_eq_true, if_false]
    omega
  have hgroupOf : ∀ g', (t.setGroup id (some g)).groupOf? g' = none ↔
      g' ≠ g ∧ t.groupOf? g' = none := by
    intro g'
    unfold groupOf?
    rw [hgroups, hset]
    simp only [Option.map_eq_none_iff, List.find?_eq_none, List.mem_append, List.mem_cons, beq_iff_eq]
    constructor
    · intro h
      have hne := h ⟨id, some g⟩ (Or.inr (Or.inl rfl))
      refine ⟨fun heq => hne (congrArg some heq.symm), fun r hr => ?_⟩
      rcases hr with hr | rfl | hr
      · exact h r (Or.inl hr)
      · simp
      · exact h r (Or.inr (Or.inr hr))
    · intro ⟨hne, h⟩ r hr
      rcases hr with hr | rfl | hr
      · exact h r (Or.inl hr)
      · simpa using hne.symm
      · exact h r (Or.inr (Or.inr hr))
  have hunassigned : (t.setGroup id (some g)).unassigned gs = (t.unassigned gs).erase g := by
    ext g'
    simp only [unassigned, Finset.mem_filter, Finset.mem_erase, hgroupOf]
    tauto
  have hinsert : t.unassigned (insert g gs) = insert g ((t.unassigned gs).erase g) := by
    ext g'
    simp only [unassigned, Finset.mem_filter, Finset.mem_insert, Finset.mem_erase]
    by_cases heq : g' = g
    · simp [heq, hnew]
    · simp [heq]
  unfold Suffices
  rw [hunassigned, hinsert, hvacant, Finset.card_insert_of_notMem (Finset.notMem_erase g _)]
  omega

theorem suffices_insert_assigned (h : t.groupOf? g ≠ none) :
    t.Suffices (insert g gs) ↔ t.Suffices gs := by
  unfold Suffices unassigned
  rw [Finset.filter_insert, if_neg h]

theorem not_suffices_insert (hnew : t.groupOf? g = none) (hfull : t.freeGroup? = none) :
    ¬ t.Suffices (insert g gs) := by
  have hvacant : t.vacant = 0 := by
    rw [freeGroup?, Option.map_eq_none_iff, List.find?_eq_none] at hfull
    exact List.countP_eq_zero.mpr hfull
  have hmem : g ∈ t.unassigned (insert g gs) :=
    Finset.mem_filter.mpr ⟨Finset.mem_insert_self g gs, hnew⟩
  have hpos := Finset.card_pos.mpr ⟨g, hmem⟩
  unfold Suffices
  omega

/-- What a claim leaves suffices for others if there was enough for all of them. -/
theorem suffices_claim (ht : t.Numbered) {i : Int} (h : t.claim full g = .ok (i, t')) :
    t'.Numbered ∧ ∀ gs, t'.Suffices gs ↔ t.Suffices (insert g gs) := by
  unfold claim at h
  cases hg : t.groupOf? g with
  | some j =>
    simp only [hg, Except.ok.injEq, Prod.mk.injEq] at h
    obtain ⟨rfl, rfl⟩ := h
    exact ⟨ht, fun gs => (suffices_insert_assigned (by simp [hg])).symm⟩
  | none =>
    cases hfree : t.freeGroup? with
    | none => simp [hg, hfree] at h
    | some j =>
      simp only [hg, hfree, Except.ok.injEq, Prod.mk.injEq] at h
      obtain ⟨rfl, rfl⟩ := h
      exact ⟨numbered_setGroup ht _, fun gs => suffices_setGroup ht hg hfree⟩

theorem not_suffices_of_claim_error {e : ε} (h : t.claim full g = .error e) :
    e = full ∧ ∀ gs, ¬ t.Suffices (insert g gs) := by
  unfold claim at h
  cases hg : t.groupOf? g with
  | some j => simp [hg] at h
  | none =>
    cases hfree : t.freeGroup? with
    | some j => simp [hg, hfree] at h
    | none =>
      simp only [hg, hfree, Except.error.injEq] at h
      exact ⟨h.symm, fun gs => not_suffices_insert hg hfree⟩

/-! ### Batches -/

theorem ensureDestination_groups (t : Tables) (group : Int) (d : Destination) :
    (t.ensureDestination group d).2.groups = t.groups := by
  unfold ensureDestination
  cases t.destinationFor? group d <;> rfl

theorem addPolicy_groups (t : Tables) (source destination : Int) :
    (t.addPolicy source destination).groups = t.groups := by
  unfold addPolicy
  split_ifs <;> rfl

/-- A policy takes groups for its two ends, and what is left suffices if there was enough. -/
theorem suffices_createOne (ht : t.Numbered) {p : Policy} (h : t.createOne full p = .ok t') :
    t'.Numbered ∧ ∀ gs, t'.Suffices gs ↔ t.Suffices (p.ends.toFinset ∪ gs) := by
  unfold createOne at h
  obtain ⟨r, hsource, h⟩ := bind_eq_ok.mp h
  obtain ⟨r', hdestination, h⟩ := bind_eq_ok.mp h
  let ensured := r'.2.ensureDestination r'.1 p.destination
  have ht' : ensured.2.addPolicy r.1 ensured.1 = t' := Except.ok.inj h
  have hgroups : t'.groups = r'.2.groups := by
    rw [← ht', addPolicy_groups, ensureDestination_groups]
  obtain ⟨hr, hfirst⟩ := suffices_claim ht hsource
  obtain ⟨hr', hsecond⟩ := suffices_claim hr hdestination
  refine ⟨?_, fun gs => ?_⟩
  · unfold Numbered
    rwa [hgroups]
  · rw [suffices_congr hgroups, hsecond, hfirst]
    simp [Policy.ends, Finset.insert_union]

theorem not_suffices_of_createOne_error (ht : t.Numbered) {p : Policy} {e : ε}
    (h : t.createOne full p = .error e) (gs : Finset String) :
    e = full ∧ ¬ t.Suffices (p.ends.toFinset ∪ gs) := by
  have hends : p.ends.toFinset ∪ gs = insert p.source.id (insert p.destination.id gs) := by
    simp [Policy.ends, Finset.insert_union]
  rw [hends]
  unfold createOne at h
  cases hsource : t.claim full p.source.id with
  | error e' =>
    obtain ⟨rfl, hnot⟩ := not_suffices_of_claim_error hsource
    simp only [hsource, bind, Except.bind, Except.error.injEq] at h
    exact ⟨h.symm, hnot _⟩
  | ok r =>
    cases hdestination : r.2.claim full p.destination.id with
    | error e' =>
      obtain ⟨rfl, hnot⟩ := not_suffices_of_claim_error hdestination
      simp only [hsource, hdestination, bind, Except.bind, Except.error.injEq] at h
      exact ⟨h.symm, by rw [← (suffices_claim ht hsource).2]; exact hnot _⟩
    | ok r' => simp [hsource, hdestination, bind, Except.bind, pure, Except.pure] at h

/-- A batch of creations fails exactly if the free groups do not suffice. -/
theorem createAll_eq_error_iff (ht : t.Numbered) {ps : List Policy} {e : ε} :
    ps.foldlM (createOne full) t = .error e ↔
      e = full ∧ ¬ t.Suffices (ps.flatMap Policy.ends).toFinset := by
  induction ps generalizing t with
  | nil => simp [Suffices, unassigned, pure, Except.pure]
  | cons p ps ih =>
    have hends : ((p :: ps).flatMap Policy.ends).toFinset =
        p.ends.toFinset ∪ (ps.flatMap Policy.ends).toFinset := by
      rw [List.flatMap_cons, List.toFinset_append]
    rw [List.foldlM_cons, hends]
    cases hone : t.createOne full p with
    | error e' =>
      obtain ⟨rfl, hnot⟩ := not_suffices_of_createOne_error ht hone
        (ps.flatMap Policy.ends).toFinset
      simp [bind, Except.bind, hnot, eq_comm]
    | ok t' =>
      obtain ⟨ht', hsuffices⟩ := suffices_createOne ht hone
      rw [← hsuffices]
      exact ih ht'

/-- The batch of a write needs more groups than are free. -/
def Exceeds (t : Tables) (w : Write) (ps : List Policy) : Prop :=
  w = .create ∧ t.vacant < (t.unassigned (ps.flatMap Policy.ends).toFinset).card

theorem write_eq_error_iff (ht : t.Numbered) {w : Write} {ps : List Policy} {e : ε} :
    t.write full w ps = .error e ↔ e = full ∧ t.Exceeds w ps := by
  unfold Exceeds
  cases w with
  | create =>
    rw [write, createAll_eq_error_iff ht, Suffices, Nat.not_le]
    simp
  | delete => simp [write]

theorem write_of_not_exceeds (ht : t.Numbered) (full : ε) {w : Write} {ps : List Policy}
    (h : ¬ t.Exceeds w ps) : ∃ t', t.write full w ps = .ok t' := by
  cases hw : t.write full w ps with
  | ok t' => exact ⟨t', rfl⟩
  | error e => exact absurd ((write_eq_error_iff ht).mp hw).2 h

end NetworkPolicy.Database.Tables
