import NetworkPolicy.Access.Guard
import NetworkPolicy.Proofs.Lists

/-! Which policies a caller sees: when the directory answers from fixed spaces, those between
applications in the caller's own spaces, in whatever batches it is asked. -/
namespace NetworkPolicy

/-! ### Spaces that were looked up -/

namespace Spaces

variable {s : Spaces} {app a x : String} {space : String → Option String}
  {entries : List (String × String)}

theorem space?_cons (e : String × String) (s : Spaces) (a : String) :
    space? (e :: s) a = if e.1 = a then some e.2 else s.space? a := by
  by_cases h : e.1 = a
  · simp [space?, h]
  · simp [space?, h]

theorem space?_replace (s : Spaces) (app x a : String) :
    space? (s.map fun e => if e.1 == app then (app, x) else e) a =
      if a = app then (s.space? app).map fun _ => x else s.space? a := by
  induction s with
  | nil => simp [space?]
  | cons e s ih =>
    rw [List.map_cons, space?_cons, ih, space?_cons, space?_cons]
    by_cases happ : e.1 = app
    · by_cases ha : a = app
      · simp [happ, ha]
      · simp [happ, ha, Ne.symm ha]
    · by_cases ha : a = app
      · simp [happ, ha]
      · simp [happ, ha]

theorem space?_append (s t : Spaces) (a : String) :
    space? (s ++ t) a = (s.space? a).or (space? t a) := by
  rw [space?, List.find?_append]
  cases hs : s.find? (·.1 == a) <;> simp [space?, hs]

theorem any_iff_space? : s.any (·.1 == app) = (s.space? app).isSome := by
  rw [space?, Option.isSome_map, Bool.eq_iff_iff, List.any_eq_true, List.find?_isSome]

theorem space?_put : (s.put app x).space? a = if a = app then some x else s.space? a := by
  have hany : s.any (·.1 == app) = (s.space? app).isSome := any_iff_space?
  unfold put
  split
  · rename_i hin
    rw [space?_replace]
    obtain ⟨y, hy⟩ := Option.isSome_iff_exists.mp (hany ▸ hin)
    rw [hy]
    rfl
  · rename_i hout
    have hnone : s.space? app = none := by simpa [hany] using hout
    rw [space?_append]
    by_cases ha : a = app
    · rw [ha, hnone]
      simp [space?]
    · have hother : space? [(app, x)] a = none := by simp [space?, Ne.symm ha]
      rw [hother, Option.or_none, if_neg ha]

/-- Entries of a fixed relation are added: the applications among them are in its spaces. -/
theorem space?_putAll (h : ∀ e ∈ entries, space e.1 = some e.2) :
    (s.putAll entries).space? a =
      if a ∈ entries.map (·.1) then space a else s.space? a := by
  induction entries generalizing s with
  | nil => rfl
  | cons e es ih =>
    have hrest := ih (s := s.put e.1 e.2) fun e' he' => h e' (List.mem_cons_of_mem _ he')
    change (putAll (s.put e.1 e.2) es).space? a = _
    rw [hrest, space?_put]
    by_cases hes : a ∈ es.map (·.1)
    · simp [hes]
    · by_cases ha : a = e.1
      · simp [ha, h e List.mem_cons_self]
      · simp [hes, ha]

end Spaces

/-! ### What a caller sees -/

variable {κ : Type} {c : Collaborators κ} {space : String → Option String}
  {developer : String → List String} {token : String} {caller : Caller} {ps : List Policy} {k : κ}

/-- The services answer all questions: applications have fixed spaces, and users are developers in
fixed ones. -/
structure Steady (c : Collaborators κ) (space : String → Option String)
    (developer : String → List String) : Prop where
  serviceToken : ∀ k, ∃ token, (c.serviceToken k).1 = .answer (.ok token)
  /-- Of the applications asked for and no others, those that have a space are told with it. -/
  appSpaces : ∀ token apps k, ∃ found, (c.appSpaces token apps k).1 = .answer (.ok found) ∧
    ∀ a x, (a, x) ∈ found ↔ a ∈ apps ∧ space a = some x
  userSpaces : ∀ token user k, ∃ own, (c.userSpaces token user k).1 = .answer (.ok own) ∧
    ∀ x, x ∈ own ↔ x ∈ developer user

/-- Whether both applications of a policy are in spaces out of `own`. -/
def Policy.isWithin (space : String → Option String) (own : List String) (p : Policy) : Bool :=
  (space p.source.id).any own.contains && (space p.destination.id).any own.contains

theorem ask_ok {α : Type} {call : κ → Reply α × κ} {a : α} (h : (call k).1 = .answer (.ok a)) :
    (Inquiry.ask call).outcome k = (.ok a, (call k).2) := by
  rw [Inquiry.outcome_ask, h]
  rfl

-- what is known before never contradicts the spaces, so a later batch may leave it as it is
theorem lookUpSpaces_run (h : Steady c space developer) (token : String)
    (bs : List (List String)) {known : Spaces}
    (hknown : ∀ a, known.space? a = none ∨ known.space? a = space a) (k : κ) :
    ∃ found k', (lookUpSpaces c token bs known).outcome k = (.ok found, k') ∧
      ∀ a, found.space? a = if a ∈ bs.flatten then space a else known.space? a := by
  induction bs generalizing known k with
  | nil => exact ⟨known, k, rfl, fun a => rfl⟩
  | cons apps bs ih =>
    obtain ⟨entries, hask, hentries⟩ := h.appSpaces token apps k
    have hput : ∀ a, (known.putAll entries).space? a =
        if a ∈ entries.map (·.1) then space a else known.space? a := fun a =>
      Spaces.space?_putAll fun e he => ((hentries e.1 e.2).mp he).2
    have hmore : ∀ a, (known.putAll entries).space? a = none ∨
        (known.putAll entries).space? a = space a := fun a => by
      rw [hput]
      split
      · exact Or.inr rfl
      · exact hknown a
    obtain ⟨found, k', hrun, hfound⟩ := ih hmore (c.appSpaces token apps k).2
    refine ⟨found, k', ?_, fun a => ?_⟩
    · rw [lookUpSpaces, Inquiry.outcome_bind, ask_ok hask]
      exact hrun
    · rw [hfound, hput]
      by_cases hrest : a ∈ bs.flatten
      · simp [hrest]
      by_cases hasked : a ∈ apps
      · -- an application that was asked for and is not told has no space
        by_cases hin : a ∈ entries.map (·.1)
        · simp [hin, hasked]
        · have hnone : space a = none := by
            by_contra hsome
            obtain ⟨x, hx⟩ := Option.ne_none_iff_exists'.mp hsome
            exact hin (List.mem_map_of_mem ((hentries a x).mpr ⟨hasked, hx⟩))
          have hunknown : known.space? a = none := (hknown a).elim id fun ha => ha.trans hnone
          simp [hasked, hrest, hin, hnone, hunknown]
      · have hout : a ∉ entries.map (·.1) := by
          rintro hin
          obtain ⟨e, he, rfl⟩ := List.mem_map.mp hin
          exact hasked ((hentries e.1 e.2).mp he).1
        simp [hasked, hrest, hout]

theorem isOwn_eq {found : Spaces} {own own' : List String} {a : String}
    (hfound : found.space? a = space a) (hown : ∀ x, x ∈ own ↔ x ∈ own') :
    isOwn found own a = (space a).any own'.contains := by
  have hcontains : own.contains = own'.contains := by
    funext x
    rw [Bool.eq_iff_iff, List.contains_iff_mem, List.contains_iff_mem, hown]
  rw [isOwn, hfound, hcontains]

theorem mayWrite_admin (h : caller.isAdmin = true) (c : Collaborators κ) (ps : List Policy) (k : κ) :
    (mayWrite c caller ps).outcome k = (.ok true, k) := by
  simp only [mayWrite, h, Bool.true_or, if_true]
  rfl

theorem visible_admin (h : caller.isAdmin = true) (c : Collaborators κ) (batchSize : Nat)
    (ps : List Policy) (k : κ) : (visible c batchSize caller ps).outcome k = (.ok ps, k) := by
  simp only [visible, h, Bool.true_or, if_true]
  rfl

/-- A caller who is no administrator sees just the policies within the own spaces. -/
theorem visible_run (h : Steady c space developer) (hcaller : caller.isAdmin = false)
    (batchSize : Nat) (ps : List Policy) (k : κ) :
    ∃ k', (visible c batchSize caller ps).outcome k =
      (.ok (ps.filter (·.isWithin space (developer caller.userId))), k') := by
  by_cases hempty : ps.isEmpty = true
  · have hnone : ps = [] := List.isEmpty_iff.mp hempty
    subst hnone
    rw [visible, hcaller]
    exact ⟨k, rfl⟩
  · have hsome : ¬ (caller.isAdmin || ps.isEmpty) = true := by simpa [hcaller] using hempty
    obtain ⟨token, htoken⟩ := h.serviceToken k
    have hnothing : ∀ a, Spaces.space? [] a = none ∨ Spaces.space? [] a = space a :=
      fun a => Or.inl rfl
    obtain ⟨found, k₁, hlookup, hfound⟩ := lookUpSpaces_run h token
      (batches batchSize (namedApps ps)) hnothing (c.serviceToken k).2
    obtain ⟨own, hown, hmem⟩ := h.userSpaces token caller.userId k₁
    have hfilter : ps.filter (fun p => isOwn found own p.source.id &&
        isOwn found own p.destination.id) =
        ps.filter (·.isWithin space (developer caller.userId)) := by
      refine List.filter_congr fun p hp => ?_
      have hends : ∀ a ∈ p.ends, found.space? a = space a := fun a ha => by
        have hnamed : a ∈ (batches batchSize (namedApps ps)).flatten := by
          rw [flatten_batches]
          exact mem_namedApps.mpr ⟨p, hp, ha⟩
        rw [hfound, if_pos hnamed]
      have hsource := hends p.source.id (by simp [Policy.ends])
      have hdestination := hends p.destination.id (by simp [Policy.ends])
      rw [Policy.isWithin, isOwn_eq hsource hmem, isOwn_eq hdestination hmem]
    refine ⟨(c.userSpaces token caller.userId k₁).2, ?_⟩
    rw [visible, if_neg hsome, Inquiry.outcome_bind, ask_ok htoken]
    dsimp only
    rw [Inquiry.outcome_bind, hlookup]
    dsimp only
    rw [Inquiry.outcome_bind, ask_ok hown]
    dsimp only
    rw [hfilter]
    rfl

end NetworkPolicy
