import NetworkPolicy.Proofs.Access.Visibility

/-! What a caller may write and what a caller sees: both are told by one rule for single policies,
though spaces are looked up at once for the one and in batches for the other. -/
namespace NetworkPolicy

variable {κ : Type} {c : Collaborators κ} {space : String → Option String}
  {developer : String → List String} {caller : Caller} {ps : List Policy}

/-- Whether a caller has the say over a policy: an administrator over all, another over those
between applications in spaces where the caller is a developer. -/
def Caller.manages (space : String → Option String) (developer : String → List String)
    (caller : Caller) (p : Policy) : Bool :=
  caller.isAdmin || p.isWithin space (developer caller.userId)

/-- Of the applications asked for, those that have a space are found in it. -/
theorem Spaces.space?_of_asked {found : Spaces} {apps : List String} {a : String}
    (h : ∀ a x, (a, x) ∈ found ↔ a ∈ apps ∧ space a = some x) (ha : a ∈ apps) :
    found.space? a = space a := by
  cases hspace : space a with
  | none =>
    refine Option.map_eq_none_iff.mpr (List.find?_eq_none.mpr fun e he => ?_)
    rintro hkey
    obtain rfl : e.1 = a := eq_of_beq hkey
    exact nomatch hspace.symm.trans ((h e.1 e.2).mp he).2
  | some x =>
    have hany : (found.find? (·.1 == a)).isSome = true :=
      List.find?_isSome.mpr ⟨(a, x), (h a x).mpr ⟨ha, hspace⟩, beq_self_eq_true a⟩
    obtain ⟨e, he⟩ := Option.isSome_iff_exists.mp hany
    have hkey := List.find?_some he
    obtain rfl : e.1 = a := eq_of_beq hkey
    have hx := ((h e.1 e.2).mp (List.mem_of_find?_eq_some he)).2.symm.trans hspace
    rw [Spaces.space?, he, Option.map_some, hx]

theorem isWithin_iff {own : List String} {p : Policy} :
    p.isWithin space own = true ↔ ∀ a ∈ p.ends, ∃ x ∈ own, space a = some x := by
  have hone : ∀ a, (space a).any own.contains = true ↔ ∃ x ∈ own, space a = some x := by
    intro a
    cases space a with
    | none => simp
    | some x => simp
  simp [Policy.isWithin, Policy.ends, hone]

theorem all_isWithin_iff {own : List String} : ps.all (·.isWithin space own) = true ↔
    ∀ a ∈ namedApps ps, ∃ x ∈ own, space a = some x := by
  simp only [List.all_eq_true, isWithin_iff, mem_namedApps]
  constructor
  · rintro h a ⟨p, hp, ha⟩
    exact h p hp a ha
  · exact fun h p hp a ha => h a ⟨p, hp, ha⟩

theorem namedApps_eq_nil : namedApps ps = [] ↔ ps = [] := by
  constructor
  · intro h
    refine List.eq_nil_iff_forall_not_mem.mpr fun p hp => ?_
    have hnamed : p.source.id ∈ namedApps ps := mem_namedApps.mpr ⟨p, hp, List.mem_cons_self⟩
    exact List.not_mem_nil (h ▸ hnamed)
  · rintro rfl
    rfl

theorem Caller.manages_of_not_admin (h : caller.isAdmin = false) :
    caller.manages space developer = (·.isWithin space (developer caller.userId)) := by
  funext p
  rw [Caller.manages, h, Bool.false_or]

-- an application without a space refuses the batch, and none of its policies is within any
theorem all_isWithin_of_unknown {own : List String} {a : String} (ha : a ∈ namedApps ps)
    (hnone : space a = none) : ps.all (·.isWithin space own) = false := by
  refine Bool.eq_false_iff.mpr fun hall => ?_
  obtain ⟨x, -, hx⟩ := all_isWithin_iff.mp hall a ha
  rw [hnone] at hx
  cases hx

/-- Where every application has a space, the spaces found are all own ones just if all policies are
within those. -/
theorem all_found_eq {found : Spaces} {own own' : List String}
    (hfound : ∀ a x, (a, x) ∈ found ↔ a ∈ namedApps ps ∧ space a = some x)
    (hknown : ∀ a ∈ namedApps ps, ∃ x, space a = some x) (hown : ∀ x, x ∈ own ↔ x ∈ own') :
    found.all (fun e => own.contains e.2) = ps.all (·.isWithin space own') := by
  rw [Bool.eq_iff_iff, all_isWithin_iff, List.all_eq_true]
  simp only [List.contains_iff_mem, hown]
  constructor
  · intro hdev a ha
    obtain ⟨x, hx⟩ := hknown a ha
    exact ⟨x, hdev (a, x) ((hfound a x).mpr ⟨ha, hx⟩), hx⟩
  · rintro hdev ⟨a, x⟩ he
    obtain ⟨ha, hx⟩ := (hfound a x).mp he
    obtain ⟨y, hy, hay⟩ := hdev a ha
    obtain rfl := Option.some.inj (hx.symm.trans hay)
    exact hy

/-- A batch may be written if the caller has the say over each of its policies. -/
theorem mayWrite_run (h : Steady c space developer) (caller : Caller) (ps : List Policy) (k : κ) :
    ∃ k', (mayWrite c caller ps).outcome k =
      (.ok (ps.all (caller.manages space developer)), k') := by
  by_cases hadmin : caller.isAdmin = true
  · have hall : ps.all (caller.manages space developer) = true := by
      simp [Caller.manages, hadmin]
    exact ⟨k, hall ▸ mayWrite_admin hadmin c ps k⟩
  rw [Caller.manages_of_not_admin (Bool.eq_false_iff.mpr hadmin)]
  by_cases hempty : (namedApps ps).isEmpty = true
  · have hnone : ps = [] := namedApps_eq_nil.mp (List.isEmpty_iff.mp hempty)
    subst hnone
    rw [mayWrite, Bool.eq_false_iff.mpr hadmin]
    exact ⟨k, rfl⟩
  have hsome : ¬ (caller.isAdmin || (namedApps ps).isEmpty) = true := by simp [hadmin, hempty]
  obtain ⟨token, htoken⟩ := h.serviceToken k
  obtain ⟨found, hasked, hfound⟩ := h.appSpaces token (namedApps ps) (c.serviceToken k).2
  have hspace : ∀ a ∈ namedApps ps, found.space? a = space a :=
    fun a ha => Spaces.space?_of_asked hfound ha
  rw [mayWrite, if_neg hsome, Inquiry.outcome_bind, ask_ok htoken]
  dsimp only
  rw [Inquiry.outcome_bind, ask_ok hasked]
  dsimp only
  by_cases hunknown : (namedApps ps).any (fun a => (found.space? a).isNone) = true
  · obtain ⟨a, ha, hnone⟩ := List.any_eq_true.mp hunknown
    rw [hspace a ha, Option.isNone_iff_eq_none] at hnone
    rw [if_pos hunknown, all_isWithin_of_unknown ha hnone]
    exact ⟨_, rfl⟩
  · have hknown : ∀ a ∈ namedApps ps, ∃ x, space a = some x := by
      intro a ha
      refine Option.ne_none_iff_exists'.mp fun hnone => hunknown ?_
      exact List.any_eq_true.mpr ⟨a, ha, by rw [hspace a ha, hnone]; rfl⟩
    obtain ⟨own, hown, hmem⟩ :=
      h.userSpaces token caller.userId (c.appSpaces token (namedApps ps) (c.serviceToken k).2).2
    rw [if_neg hunknown, Inquiry.outcome_bind, ask_ok hown]
    exact ⟨_, congrArg (fun b => (Except.ok b, _)) (all_found_eq hfound hknown hmem)⟩

/-- A listing shows just the policies over which the caller has the say. -/
theorem visible_manages (h : Steady c space developer) (batchSize : Nat) (caller : Caller)
    (ps : List Policy) (k : κ) : ∃ k', (visible c batchSize caller ps).outcome k =
      (.ok (ps.filter (caller.manages space developer)), k') := by
  cases hadmin : caller.isAdmin with
  | true =>
    have hall : ps.filter (caller.manages space developer) = ps := by
      simp [Caller.manages, hadmin]
    exact ⟨k, hall.symm ▸ visible_admin hadmin c batchSize ps k⟩
  | false =>
    rw [Caller.manages_of_not_admin hadmin]
    exact visible_run h hadmin batchSize ps k

/-- A batch may be written exactly when a listing would show all of it, and what a listing shows is
just what might be written alone, whatever batches spaces are looked up in. -/
theorem writing_agrees_with_seeing (h : Steady c space developer) (caller : Caller)
    (batchSize : Nat) (ps : List Policy) (k₁ k₂ : κ) :
    ∃ allowed seen k₁' k₂', (mayWrite c caller ps).outcome k₁ = (.ok allowed, k₁') ∧
      (visible c batchSize caller ps).outcome k₂ = (.ok seen, k₂') ∧
      (allowed = true ↔ seen = ps) ∧
      seen = ps.filter (caller.manages space developer) ∧
      ∀ p k, ∃ k', (mayWrite c caller [p]).outcome k =
        (.ok (caller.manages space developer p), k') := by
  obtain ⟨k₁', hwrite⟩ := mayWrite_run h caller ps k₁
  obtain ⟨k₂', hsee⟩ := visible_manages h batchSize caller ps k₂
  refine ⟨_, _, k₁', k₂', hwrite, hsee, ?_, rfl, fun p k => ?_⟩
  · rw [List.all_eq_true, List.filter_eq_self]
  · obtain ⟨k', halone⟩ := mayWrite_run h caller [p] k
    refine ⟨k', halone.trans ?_⟩
    rw [List.all_cons, List.all_nil, Bool.and_true]

/-- Services that know the spaces of applications, and the spaces in which everyone is a
developer. -/
def registry (space : String → Option String) (own : List String) : Collaborators Unit where
  checkToken _ k := (.silence, k)
  serviceToken k := (.answer (.ok "token"), k)
  appSpaces _ apps k := (.answer (.ok (apps.filterMap fun a => (space a).map (a, ·))), k)
  userSpaces _ _ k := (.answer (.ok own), k)
  liveApps _ apps k := (.answer (.ok (apps.filter fun a => (space a).isSome)), k)

theorem steady_registry (space : String → Option String) (own : List String) :
    Steady (registry space own) space fun _ => own where
  serviceToken k := ⟨_, rfl⟩
  appSpaces token apps k := by
    refine ⟨_, rfl, fun a x => ?_⟩
    rw [List.mem_filterMap]
    constructor
    · rintro ⟨b, hb, hx⟩
      obtain ⟨y, hy, hpair⟩ := Option.map_eq_some_iff.mp hx
      cases hpair
      exact ⟨hb, hy⟩
    · rintro ⟨ha, hx⟩
      exact ⟨a, ha, by rw [hx]; rfl⟩
  userSpaces token user k := ⟨_, rfl, fun x => Iff.rfl⟩

/-- One policy within the caller's space, one to another space and one from an application that
does not exist: the three are refused together, and the first one is seen. -/
theorem writing_agrees_with_seeing_three_policies :
    let space : String → Option String := fun a => [("a", "s"), ("b", "s"), ("c", "t")].lookup a
    let c := registry space ["s"]
    let within : Policy := ⟨⟨"a", "01"⟩, ⟨"b", "02", "tcp", ⟨80, 81⟩⟩⟩
    let across : Policy := ⟨⟨"a", "01"⟩, ⟨"c", "03", "tcp", ⟨80, 81⟩⟩⟩
    let unknown : Policy := ⟨⟨"d", "04"⟩, ⟨"a", "01", "udp", ⟨53, 53⟩⟩⟩
    Steady c space (fun _ => ["s"]) ∧
      ((mayWrite c {} [within, across, unknown]).outcome ()).1 = .ok false ∧
      ((visible c 2 {} [within, across, unknown]).outcome ()).1 = .ok [within] := by
  intro space c within across unknown
  have hsteady : Steady c space fun _ => ["s"] := steady_registry space ["s"]
  obtain ⟨allowed, seen, k₁, k₂, hwrite, hsee, hagree, hseen, -⟩ :=
    writing_agrees_with_seeing hsteady {} 2 [within, across, unknown] () ()
  have hfilter : [within, across, unknown].filter (Caller.manages space (fun _ => ["s"]) {}) =
      [within] := by decide
  obtain rfl : seen = [within] := hseen.trans hfilter
  have hallowed : allowed = false := by
    refine Bool.eq_false_iff.mpr fun h => ?_
    exact absurd (hagree.mp h) (by decide)
  rw [hwrite, hsee, hallowed]
  exact ⟨hsteady, rfl, rfl⟩

end NetworkPolicy
