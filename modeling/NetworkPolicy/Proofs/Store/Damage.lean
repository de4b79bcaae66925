import NetworkPolicy.Proofs.Store.Soundness

/-! What is read back of rows that anyone may have written: just the numbers that they hold, or the first of
them that cannot be shown. -/
namespace NetworkPolicy.Database

variable {ε : Type} {l : TagLength} {r : JoinedRow} {p : Policy}

/-! ### Numbers -/

theorem storedGroup_of_nonneg {id : Int} (h : 0 ≤ id) : storedGroup id = .ok id.toNat :=
  if_neg (Int.not_lt.mpr h)

theorem storedGroup_of_neg {id : Int} (h : ¬ 0 ≤ id) :
    storedGroup id = .error (.negativeGroup id) :=
  if_pos (Int.not_le.mp h)

theorem storedPort_of_isPort {n : Int} (h : IsPort n) :
    ∃ port, storedPort n = .ok port ∧ (port.toNat : Int) = n := by
  refine ⟨n.toNat.toUInt16, if_pos h, ?_⟩
  obtain ⟨h0, hlt⟩ := h
  have hmod : n.toNat.toUInt16.toNat = n.toNat % 65536 := UInt16.toNat_ofNat'
  omega

theorem storedPort_of_not_isPort {n : Int} (h : ¬ IsPort n) :
    storedPort n = .error (.portOutOfRange n) :=
  if_neg h

/-! ### Rows -/

instance (n : Int) : Decidable (IsPort n) := inferInstanceAs (Decidable (0 ≤ n ∧ n < 65536))

/-- What is wrong with a stored group id. -/
def groupDamage (id : Int) : List Damage := if 0 ≤ id then [] else [.negativeGroup id]

/-- What is wrong with a stored port. -/
def portDamage (port : Int) : List Damage := if IsPort port then [] else [.portOutOfRange port]

namespace JoinedRow

/-- All that is wrong with a row: with its source, its destination, its first port and its last. -/
def damages (r : JoinedRow) : List Damage :=
  groupDamage r.source.id ++ groupDamage r.destination.id ++ portDamage r.first ++ portDamage r.last

/-- Every number of the row fits what it stands for. -/
structure Intact (r : JoinedRow) : Prop where
  source : 0 ≤ r.source.id
  destination : 0 ≤ r.destination.id
  first : IsPort r.first
  last : IsPort r.last

theorem damages_eq_nil : r.damages = [] ↔ r.Intact := by
  unfold damages groupDamage portDamage
  simp only [List.append_eq_nil_iff, ite_eq_left_iff, List.cons_ne_nil, imp_false, not_not]
  constructor
  · intro ⟨⟨⟨hsource, hdestination⟩, hfirst⟩, hlast⟩
    exact ⟨hsource, hdestination, hfirst, hlast⟩
  · intro h
    exact ⟨⟨⟨h.source, h.destination⟩, h.first⟩, h.last⟩

/-- The policy shows the very texts and numbers of the row. -/
structure Carries (l : TagLength) (r : JoinedRow) (p : Policy) : Prop where
  source : r.source.guid = some p.source.id
  sourceTag : ∃ n : Nat, (n : Int) = r.source.id ∧ p.source.tag = l.render n
  destination : r.destination.guid = some p.destination.id
  destinationTag : ∃ n : Nat, (n : Int) = r.destination.id ∧ p.destination.tag = l.render n
  protocol : p.destination.protocol = r.protocol
  first : (p.destination.ports.first.toNat : Int) = r.first
  last : (p.destination.ports.last.toNat : Int) = r.last

/-- Only what fits can be shown. -/
theorem Carries.intact (h : Carries l r p) : r.Intact := by
  obtain ⟨n, hn, -⟩ := h.sourceTag
  obtain ⟨n', hn', -⟩ := h.destinationTag
  have hfirst := isPort_toNat p.destination.ports.first
  have hlast := isPort_toNat p.destination.ports.last
  rw [h.first] at hfirst
  rw [h.last] at hlast
  exact ⟨by omega, by omega, hfirst, hlast⟩

end JoinedRow

section Row

variable {a b : String}

theorem storedPolicy_intact (ha : r.source.guid = some a) (hb : r.destination.guid = some b)
    (h : r.damages = []) : ∃ p, storedPolicy l a b r = .ok p ∧ r.Carries l p := by
  obtain ⟨hsource, hdestination, hfirst, hlast⟩ := JoinedRow.damages_eq_nil.mp h
  obtain ⟨first, hfirst, hfirst'⟩ := storedPort_of_isPort hfirst
  obtain ⟨last, hlast, hlast'⟩ := storedPort_of_isPort hlast
  simp only [storedPolicy, storedGroup_of_nonneg hsource, storedGroup_of_nonneg hdestination, hfirst,
    hlast, bind, Except.bind]
  refine ⟨_, rfl, ha, ⟨_, Int.toNat_of_nonneg hsource, rfl⟩, hb, ?_, rfl, hfirst', hlast'⟩
  exact ⟨_, Int.toNat_of_nonneg hdestination, rfl⟩

/-- The checks are made in the order in which the damages are listed, and the first that fails ends
them. -/
theorem storedPolicy_damaged {d : Damage} {ds : List Damage} (h : r.damages = d :: ds) :
    storedPolicy l a b r = .error d := by
  unfold JoinedRow.damages groupDamage portDamage at h
  unfold storedPolicy
  by_cases hsource : 0 ≤ r.source.id
  case neg =>
    rw [storedGroup_of_neg hsource]
    simp only [if_neg hsource, List.cons_append, List.cons.injEq] at h
    exact congrArg Except.error h.1
  by_cases hdestination : 0 ≤ r.destination.id
  case neg =>
    rw [storedGroup_of_nonneg hsource, storedGroup_of_neg hdestination]
    simp only [if_pos hsource, if_neg hdestination, List.nil_append, List.cons_append,
      List.cons.injEq] at h
    exact congrArg Except.error h.1
  rw [storedGroup_of_nonneg hsource, storedGroup_of_nonneg hdestination]
  simp only [if_pos hsource, if_pos hdestination, List.nil_append] at h
  by_cases hfirst : IsPort r.first
  case neg =>
    rw [storedPort_of_not_isPort hfirst]
    simp only [if_neg hfirst, List.cons_append, List.cons.injEq] at h
    exact congrArg Except.error h.1
  obtain ⟨first, hport, -⟩ := storedPort_of_isPort hfirst
  rw [hport]
  simp only [if_pos hfirst, List.nil_append] at h
  by_cases hlast : IsPort r.last
  case pos => simp [hlast] at h
  rw [storedPort_of_not_isPort hlast]
  simp only [if_neg hlast, List.cons.injEq] at h
  exact congrArg Except.error h.1

end Row

/-! ### Lists of rows -/

/-- What reading rows in order comes to: policies that show all of them, or the first damage. -/
inductive ReadBack (l : TagLength) (corrupt : String → ε) (rows : List JoinedRow) :
    Except ε (List Policy) → Prop where
  | ok {ps : List Policy} : List.Forall₂ (JoinedRow.Carries l) rows ps → ReadBack l corrupt rows (.ok ps)
  | damaged {d : Damage} {ds : List Damage} : rows.flatMap JoinedRow.damages = d :: ds →
      ReadBack l corrupt rows (.error (corrupt d.message))

theorem readBack_mapM {corrupt : String → ε} {read : JoinedRow → Except ε Policy}
    {rows : List JoinedRow}
    (hread : ∀ r ∈ rows, ∃ a b, r.source.guid = some a ∧ r.destination.guid = some b ∧
      read r = (storedPolicy l a b r).mapError fun d => corrupt d.message) :
    ReadBack l corrupt rows (rows.mapM read) := by
  induction rows with
  | nil => exact .ok .nil
  | cons r rows ih =>
    obtain ⟨a, b, ha, hb, hr⟩ := hread r List.mem_cons_self
    rw [List.mapM_cons, hr]
    cases hdamages : r.damages with
    | cons d ds =>
      rw [storedPolicy_damaged hdamages]
      exact .damaged (by rw [List.flatMap_cons, hdamages, List.cons_append])
    | nil =>
      obtain ⟨p, hp, hcarries⟩ := storedPolicy_intact (l := l) ha hb hdamages
      have hrest := ih fun r' hr' => hread r' (List.mem_cons_of_mem _ hr')
      rw [hp]
      generalize rows.mapM read = y at hrest ⊢
      cases hrest with
      | ok hps => exact .ok (.cons hcarries hps)
      | damaged hd => exact .damaged (by rw [List.flatMap_cons, hdamages, List.nil_append, hd])

theorem flatMap_damages_eq_nil {rows : List JoinedRow} :
    rows.flatMap JoinedRow.damages = [] ↔ ∀ r ∈ rows, r.Intact := by
  simp only [List.flatMap_eq_nil_iff, JoinedRow.damages_eq_nil]

theorem intact_of_carries {rows : List JoinedRow} {ps : List Policy}
    (h : List.Forall₂ (JoinedRow.Carries l) rows ps) : ∀ r ∈ rows, r.Intact := by
  intro r hr
  obtain ⟨p, -, hcarries⟩ := exists_mem_of_forall₂ h r hr
  exact hcarries.intact

theorem ReadBack.ok_iff {corrupt : String → ε} {rows : List JoinedRow}
    {y : Except ε (List Policy)} (h : ReadBack l corrupt rows y) :
    (∃ ps, y = .ok ps) ↔ ∀ r ∈ rows, r.Intact := by
  cases h with
  | ok hps => exact iff_of_true ⟨_, rfl⟩ (intact_of_carries hps)
  | damaged hd =>
    rw [← flatMap_damages_eq_nil, hd]
    simp

/-- The first damage is what is reported. -/
theorem ReadBack.eq_error {corrupt : String → ε} {rows : List JoinedRow}
    {y : Except ε (List Policy)} (h : ReadBack l corrupt rows y) {d : Damage} {ds : List Damage}
    (hd : rows.flatMap JoinedRow.damages = d :: ds) : y = .error (corrupt d.message) := by
  cases h with
  | ok hps =>
    rw [flatMap_damages_eq_nil.mpr (intact_of_carries hps)] at hd
    cases hd
  | damaged hd' =>
    obtain ⟨rfl, -⟩ := List.cons.inj (hd'.symm.trans hd)
    rfl

/-- Errors of a store and those that every store reports. -/
theorem ReadBack.mapError {δ : Type} {corrupt : String → ε} {corrupt' : String → δ} {f : ε → δ}
    {rows : List JoinedRow} {y : Except ε (List Policy)} (h : ReadBack l corrupt rows y)
    (hf : (fun cause => f (corrupt cause)) = corrupt') : ReadBack l corrupt' rows (y.mapError f) := by
  subst hf
  cases h with
  | ok hps => exact .ok hps
  | damaged hd => exact .damaged hd

end NetworkPolicy.Database
