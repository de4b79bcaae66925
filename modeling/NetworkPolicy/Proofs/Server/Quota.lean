import NetworkPolicy.Proofs.Server.Runs

/-! Creations that overlap. A request is checked against what is stored at that moment and writes its
batch in a later call, and nothing keeps another request's batch from being written in between: there
may be more policies than there are to be, but by no more than what came in between. -/
namespace NetworkPolicy

open Http (Request Response)

/-- How many policies the store lists when nothing is refused. -/
def OpenStore.count (o : OpenStore) : Nat :=
  match o.policies with
  | .ok ps => ps.length
  | .error _ => 0

theorem OpenStore.count_eq {o : OpenStore} {m : MemoryStore} (h : standing.stands o m) :
    o.count = m.policies.length := by
  rw [count, policies_eq h]

/-! ### The steps of a creation -/

/-- How far a request for a creation has come whose batch has been accepted. -/
inductive Creation where
  | accepted (ps : List Policy)
  /-- The quota was checked when so many policies were stored. -/
  | cleared (ps : List Policy) (seen : Nat)
  /-- The batch was written when `late` more policies were stored than at the check. -/
  | stored (ps : List Policy) (late : Nat)
  | failed (f : Failure)
  deriving DecidableEq

namespace Creation

/-- What a request is answered with that has come to its end. -/
def answer? : Creation → Option (Except Failure Response)
  | stored _ _ => some (.ok .done)
  | failed f => some (.error f)
  | _ => none

/-- There was room for the batch when the quota was checked. -/
def HadRoom (max : Nat) : Creation → Prop
  | cleared ps seen => seen + ps.length ≤ max
  | _ => True

end Creation

namespace Service

variable {κ : Type} (s : Service OpenStore κ)

/-- Goes on if a check or a write ends well. -/
def settle {α : Type} (call : Effect OpenStore κ (Except Failure α))
    (next : World OpenStore κ → Creation) : Effect OpenStore κ Creation := do
  let w ← get
  match ← call with
  | .ok _ => return next w
  | .error f => return .failed f

/-- The next step of a creation, which makes one store call. -/
def creationStep : Creation → Effect OpenStore κ Creation
  | .accepted ps => settle (s.checkQuota ps).outcome fun w => .cleared ps w.store.count
  | .cleared ps seen => settle (s.storeBatch ps).outcome fun w => .stored ps (w.store.count - seen)
  | .stored ps late => return .stored ps late
  | .failed f => return .failed f

variable {s} {ps : List Policy} {seen : Nat} {f : Failure} {c c' : Creation}
  {w w' w₁ : World OpenStore κ} {m : MemoryStore}

theorem run_bind_of_eq {α β : Type} {e : Effect OpenStore κ α} {a : α} (h : e.run w = (a, w'))
    (next : α → Effect OpenStore κ β) : (e >>= next).run w = (next a).run w' := by
  rw [StateT.run_bind, h]
  rfl

theorem settle_ok {α : Type} {call : Effect OpenStore κ (Except Failure α)} {a : α}
    (h : call.run w = (.ok a, w')) (next : World OpenStore κ → Creation) :
    (settle call next).run w = (next w, w') := by
  simp only [settle, StateT.run_bind, StateT.run_get, pure_bind, h]
  rfl

theorem settle_error {α : Type} {call : Effect OpenStore κ (Except Failure α)}
    (h : call.run w = (.error f, w')) (next : World OpenStore κ → Creation) :
    (settle call next).run w = (.failed f, w') := by
  simp only [settle, StateT.run_bind, StateT.run_get, pure_bind, h]
  rfl

/-- The quota is checked on what is stored then, and nothing is written. -/
theorem checkQuota_run (hr : OpenStore.standing.Realizes s.store)
    (hs : OpenStore.standing.stands w.store m) {x : Except Failure Unit}
    (hrun : (s.checkQuota ps).outcome.run w = (x, w')) :
    OpenStore.standing.stands w'.store m ∧
      (x = .ok () → m.policies.length + ps.length ≤ s.limits.maxPolicies) := by
  rcases hread : s.all.run w with ⟨e | stored, w₁⟩
  · obtain ⟨hs₁, -⟩ := read_ended hs (hr.all hs) hread
    obtain ⟨w₂, hfails, hquiet⟩ : ∃ w₂, (s.checkQuota ps).outcome.run w =
        (.error ⟨500, Change.create.context, "check quota failed"⟩, w₂) ∧ w₁.Quiet w₂ :=
      checkQuota_error hread
    obtain ⟨rfl, rfl⟩ := Prod.mk.inj (hrun.symm.trans hfails)
    exact ⟨hquiet.store ▸ hs₁, fun h => nomatch h⟩
  · obtain ⟨hs₁, hstored⟩ := read_ended hs (hr.all hs) hread
    obtain rfl := hstored stored rfl
    by_cases hroom : m.policies.length + ps.length ≤ s.limits.maxPolicies
    · obtain ⟨rfl, rfl⟩ := Prod.mk.inj (hrun.symm.trans (checkQuota_ok hread hroom))
      exact ⟨hs₁, fun _ => hroom⟩
    · obtain ⟨w₂, hfails, hquiet⟩ := checkQuota_exceeded hread (Nat.lt_of_not_le hroom)
      obtain ⟨rfl, rfl⟩ := Prod.mk.inj (hrun.symm.trans hfails)
      exact ⟨hquiet.store ▸ hs₁, fun h => nomatch h⟩

theorem storeBatch_run (hr : OpenStore.standing.Realizes s.store)
    (hs : OpenStore.standing.stands w.store m) {x : Except Failure Unit}
    (hrun : (s.storeBatch ps).outcome.run w = (x, w')) :
    match x with
    | .ok _ => ∃ m', m.written .create ps = .ok m' ∧ OpenStore.standing.stands w'.store m'
    | .error _ => OpenStore.standing.stands w'.store m := by
  rcases hwrite : (s.write .create ps).run w with ⟨e | _, w₁⟩
  · have hs₁ := write_run hr hs hwrite
    obtain ⟨w₂, hfails, hquiet⟩ : ∃ w₂, (s.storeBatch ps).outcome.run w =
        (.error ⟨500, Change.create.context, "database create failed"⟩, w₂) ∧ w₁.Quiet w₂ :=
      require_error hwrite
    obtain ⟨rfl, rfl⟩ := Prod.mk.inj (hrun.symm.trans hfails)
    exact hquiet.store ▸ hs₁
  · have hs₁ := write_run hr hs hwrite
    have hdone : (s.storeBatch ps).outcome.run w = (.ok (), w₁) := require_ok hwrite
    obtain ⟨rfl, rfl⟩ := Prod.mk.inj (hrun.symm.trans hdone)
    exact hs₁

/-- A step of a creation stores nothing, or it writes a batch, for which there was room when the quota
was checked. -/
theorem creationStep_run (hr : OpenStore.standing.Realizes s.store)
    (hs : OpenStore.standing.stands w.store m) (hc : c.HadRoom s.limits.maxPolicies)
    (hrun : (s.creationStep c).run w = (c', w')) :
    c'.HadRoom s.limits.maxPolicies ∧ ∃ m', OpenStore.standing.stands w'.store m' ∧
      (m' = m ∧ (∀ ps late, c = .stored ps late → c' = c) ∨
        ∃ ps late, c' = .stored ps late ∧
          m'.policies.length ≤ s.limits.maxPolicies + late) := by
  cases c with
  | accepted ps =>
    rcases hcheck : (s.checkQuota ps).outcome.run w with ⟨f | _, w₁⟩
    · obtain ⟨hs₁, -⟩ := checkQuota_run hr hs hcheck
      rw [creationStep, settle_error hcheck] at hrun
      obtain ⟨rfl, rfl⟩ := Prod.mk.inj hrun
      exact ⟨trivial, m, hs₁, Or.inl ⟨rfl, fun _ _ h => nomatch h⟩⟩
    · obtain ⟨hs₁, hroom⟩ := checkQuota_run hr hs hcheck
      rw [creationStep, settle_ok hcheck] at hrun
      obtain ⟨rfl, rfl⟩ := Prod.mk.inj hrun
      refine ⟨?_, m, hs₁, Or.inl ⟨rfl, fun _ _ h => nomatch h⟩⟩
      change w.store.count + ps.length ≤ _
      rw [OpenStore.count_eq hs]
      exact hroom rfl
  | cleared ps seen =>
    rcases hwrite : (s.storeBatch ps).outcome.run w with ⟨f | _, w₁⟩
    · have hs₁ := storeBatch_run hr hs hwrite
      rw [creationStep, settle_error hwrite] at hrun
      obtain ⟨rfl, rfl⟩ := Prod.mk.inj hrun
      exact ⟨trivial, m, hs₁, Or.inl ⟨rfl, fun _ _ h => nomatch h⟩⟩
    · obtain ⟨m', hwritten, hs₁⟩ := storeBatch_run hr hs hwrite
      rw [creationStep, settle_ok hwrite] at hrun
      obtain ⟨rfl, rfl⟩ := Prod.mk.inj hrun
      refine ⟨trivial, m', hs₁, Or.inr ⟨ps, _, rfl, ?_⟩⟩
      have hadded := (OpenStore.standing.valid hs).length_createAll hwritten
      have hroom : seen + ps.length ≤ s.limits.maxPolicies := hc
      rw [OpenStore.count_eq hs]
      omega
  | stored ps late =>
    cases hrun
    exact ⟨trivial, m, hs, Or.inl ⟨rfl, fun _ _ _ => rfl⟩⟩
  | failed f =>
    cases hrun
    exact ⟨trivial, m, hs, Or.inl ⟨rfl, fun _ _ _ => rfl⟩⟩

theorem acceptBatch_store {change : Change} {version : String} {header : Option String}
    {body : ByteArray} {x : Caller × List Policy}
    (h : (s.acceptBatch change version header body).outcome.run w = (.ok x, w₁)) :
    w₁.store = w.store := by
  rcases s.exists_accepted change version header body w with
    ⟨v, caller, ps, w₂, haccepted⟩ | ⟨f, w₂, hrejected⟩
  · obtain ⟨-, rfl⟩ := Prod.mk.inj (h.symm.trans (haccepted.run change))
    exact haccepted.store_eq
  · obtain ⟨w₃, hrun, -⟩ := hrejected.run
    exact nomatch h.symm.trans hrun

/-- A request makes just these two steps once its batch has been accepted, and is answered as they
end. -/
theorem createPolicies_steps {version : String} {header : Option String} {body : ByteArray}
    {caller : Caller}
    (h : (s.acceptBatch .create version header body).outcome.run w = (.ok (caller, ps), w₁)) :
    ∃ c w₂ w₃ x, (s.creationStep (.accepted ps) >>= s.creationStep).run w₁ = (c, w₂) ∧
      (s.createPolicies version header body).outcome.run w = (x, w₃) ∧ w₂.Quiet w₃ ∧
      c.answer? = some x := by
  rw [createPolicies, Task.outcome_bind_ok h]
  dsimp only
  rw [createAccepted]
  rcases hcheck : (s.checkQuota ps).outcome.run w₁ with ⟨f | _, w₂⟩
  · have hfirst : (s.creationStep (.accepted ps)).run w₁ = (.failed f, w₂) := by
      rw [creationStep, settle_error hcheck]
    rw [run_bind_of_eq hfirst, Task.outcome_bind_error hcheck]
    exact ⟨.failed f, w₂, w₂, .error f, rfl, rfl, ⟨rfl, rfl⟩, rfl⟩
  · have hfirst : (s.creationStep (.accepted ps)).run w₁ =
        (.cleared ps w₁.store.count, w₂) := by
      rw [creationStep, settle_ok hcheck]
    rw [run_bind_of_eq hfirst, Task.outcome_bind_ok hcheck, creationStep]
    rcases hwrite : (s.storeBatch ps).outcome.run w₂ with ⟨f | _, w₃⟩
    · rw [settle_error hwrite, Task.outcome_bind_error hwrite]
      exact ⟨.failed f, w₃, w₃, .error f, rfl, rfl, ⟨rfl, rfl⟩, rfl⟩
    · rw [settle_ok hwrite, Task.outcome_bind_ok hwrite]
      exact ⟨_, w₃, _, .ok .done, rfl, rfl, ⟨rfl, rfl⟩, rfl⟩

/-! ### Creations in flight -/

/-- Requests that have been accepted since `start`, and the world they share. Each makes its steps at
any time; in between all but the store may change. -/
inductive InFlight (s : Service OpenStore κ) (start : World OpenStore κ) :
    List Creation → World OpenStore κ → Prop where
  | start : InFlight s start [] start
  | accept {requests : List Creation} {w : World OpenStore κ} (ps : List Policy) :
      InFlight s start requests w → InFlight s start (requests ++ [.accepted ps]) w
  | turn (before : List Creation) {after : List Creation} {c c' : Creation}
      {w w' : World OpenStore κ} : InFlight s start (before ++ c :: after) w →
      (s.creationStep c).run w = (c', w') → InFlight s start (before ++ c' :: after) w'
  | elsewhere {requests : List Creation} {w w' : World OpenStore κ} :
      InFlight s start requests w → w'.store = w.store → InFlight s start requests w'

/-- There are no more policies than there may be, or some batch was written after others had been
since its check, and there are no more than those in excess. -/
def Excess (max : Nat) (requests : List Creation) (count : Nat) : Prop :=
  count ≤ max ∨ ∃ ps late, .stored ps late ∈ requests ∧ 0 < late ∧ count ≤ max + late

theorem Excess.turn {max count count' : Nat} {before after : List Creation}
    (h : Excess max (before ++ c :: after) count)
    (hstep : count' = count ∧ (∀ ps late, c = .stored ps late → c' = c) ∨
      ∃ ps late, c' = .stored ps late ∧ count' ≤ max + late) :
    Excess max (before ++ c' :: after) count' := by
  rcases hstep with ⟨rfl, hkept⟩ | ⟨ps, late, rfl, hcount⟩
  · refine h.imp_right ?_
    rintro ⟨ps, late, hmem, hlate, hcount⟩
    refine ⟨ps, late, ?_, hlate, hcount⟩
    rw [List.mem_append, List.mem_cons] at hmem ⊢
    rcases hmem with hmem | rfl | hmem
    · exact Or.inl hmem
    · exact Or.inr (Or.inl (hkept ps late rfl).symm)
    · exact Or.inr (Or.inr hmem)
  · by_cases hlate : 0 < late
    · exact Or.inr ⟨ps, late, List.mem_append_right _ List.mem_cons_self, hlate, hcount⟩
    · exact Or.inl (by omega)

theorem InFlight.excess {start : World OpenStore κ} {requests : List Creation}
    (h : s.InFlight start requests w) (hr : OpenStore.standing.Realizes s.store)
    (hs : OpenStore.standing.stands start.store m)
    (hfew : m.policies.length ≤ s.limits.maxPolicies) :
    ∃ m', OpenStore.standing.stands w.store m' ∧
      (∀ c ∈ requests, c.HadRoom s.limits.maxPolicies) ∧
      Excess s.limits.maxPolicies requests m'.policies.length := by
  induction h with
  | start => exact ⟨m, hs, fun c hc => absurd hc List.not_mem_nil, Or.inl hfew⟩
  | accept ps _ ih =>
    obtain ⟨m', hs', hroom, hexcess⟩ := ih
    refine ⟨m', hs', ?_, hexcess.imp_right ?_⟩
    · rw [List.forall_mem_append]
      exact ⟨hroom, fun c hc => List.mem_singleton.mp hc ▸ trivial⟩
    · rintro ⟨qs, late, hmem, hexcess⟩
      exact ⟨qs, late, List.mem_append_left _ hmem, hexcess⟩
  | @turn before after c c' w₁ w₂ _ hrun ih =>
    obtain ⟨m', hs', hroom, hexcess⟩ := ih
    rw [List.forall_mem_append, List.forall_mem_cons] at hroom
    obtain ⟨hbefore, hc, hafter⟩ := hroom
    obtain ⟨hc', m'', hs'', hstep⟩ := creationStep_run hr hs' hc hrun
    refine ⟨m'', hs'', ?_, hexcess.turn (hstep.imp_left fun ⟨hsame, hkept⟩ => ⟨by rw [hsame], hkept⟩)⟩
    rw [List.forall_mem_append, List.forall_mem_cons]
    exact ⟨hbefore, hc', hafter⟩
  | elsewhere _ hstore ih =>
    obtain ⟨m', hs', hrest⟩ := ih
    exact ⟨m', hstore ▸ hs', hrest⟩

/-- Whatever requests for creations are in flight at once: each that passes the quota had room for its
batch at that moment. From no more policies than there may be, there are never more of them than that
and what was written between the check and the write of some request; where nothing was, there are
never more than there may be. A request does nothing to the store but these two steps. -/
theorem excess_in_flight {start : World OpenStore κ} {requests : List Creation}
    (hstore : s.store = OpenStore.store) (hstart : start.store.Reachable)
    (hfew : start.store.count ≤ s.limits.maxPolicies) (h : s.InFlight start requests w) :
    (∀ ps seen, .cleared ps seen ∈ requests → seen + ps.length ≤ s.limits.maxPolicies) ∧
    Excess s.limits.maxPolicies requests w.store.count ∧
    ((∀ ps late, .stored ps late ∈ requests → late = 0) →
      w.store.count ≤ s.limits.maxPolicies) ∧
    ∀ version header body w caller ps w₁,
      (s.acceptBatch .create version header body).outcome.run w = (.ok (caller, ps), w₁) →
      w₁.store = w.store ∧ ∃ c w₂ w₃ x,
        (s.creationStep (.accepted ps) >>= s.creationStep).run w₁ = (c, w₂) ∧
        (s.createPolicies version header body).outcome.run w = (x, w₃) ∧ w₂.Quiet w₃ ∧
        c.answer? = some x := by
  have hr : OpenStore.standing.Realizes s.store := hstore ▸ OpenStore.realizes
  obtain ⟨m, hs⟩ := hstart.stands
  rw [OpenStore.count_eq hs] at hfew
  obtain ⟨m', hs', hroom, hexcess⟩ := h.excess hr hs hfew
  rw [OpenStore.count_eq hs']
  refine ⟨fun ps seen hmem => hroom _ hmem, hexcess, fun hnone => ?_, ?_⟩
  · rcases hexcess with hcount | ⟨ps, late, hmem, hlate, -⟩
    · exact hcount
    · have := hnone ps late hmem
      omega
  · intro version header body w caller ps w₁ haccept
    exact ⟨acceptBatch_store haccept, createPolicies_steps haccept⟩

theorem turn_eq {c' : Creation} (h : ((s.creationStep c).run w).1 = c') :
    (s.creationStep c).run w = (c', ((s.creationStep c).run w).2) :=
  Prod.ext h rfl

/-- Where there may be one policy and one request is handled after the other, the second is refused. -/
theorem excess_in_flight_in_turn :
    let p : Policy := ⟨⟨"a", ""⟩, ⟨"b", "", "tcp", ⟨80, 81⟩⟩⟩
    let s := countingDesk ["a", "b"] { maxPolicies := 1 }
    ∃ w, s.InFlight morning
        [.stored [p] 0, .failed ⟨403, "policies-create", "policy quota exceeded"⟩] w ∧
      w.store.count ≤ 1 := by
  intro p s
  let q : Policy := ⟨⟨"b", ""⟩, ⟨"a", "", "udp", ⟨53, 53⟩⟩⟩
  let w₁ := ((s.creationStep (.accepted [p])).run morning).2
  let w₂ := ((s.creationStep (.cleared [p] 0)).run w₁).2
  let w₃ := ((s.creationStep (.accepted [q])).run w₂).2
  have hcheck : (s.creationStep (.accepted [p])).run morning = (.cleared [p] 0, w₁) :=
    turn_eq (by decide +kernel)
  have hwrite : (s.creationStep (.cleared [p] 0)).run w₁ = (.stored [p] 0, w₂) :=
    turn_eq (by decide +kernel)
  have hrefused : (s.creationStep (.accepted [q])).run w₂ =
      (.failed ⟨403, "policies-create", "policy quota exceeded"⟩, w₃) :=
    turn_eq (by decide +kernel)
  have hwritten : s.InFlight morning [.stored [p] 0] w₂ :=
    .turn [] (.turn [] (.accept [p] .start) hcheck) hwrite
  have hended : s.InFlight morning
      [.stored [p] 0, .failed ⟨403, "policies-create", "policy quota exceeded"⟩] w₃ :=
    .turn [.stored [p] 0] (.accept [q] hwritten) hrefused
  obtain ⟨-, -, hwithin, -⟩ :=
    excess_in_flight rfl (.memory .oneByte 3) (by decide) hended
  refine ⟨w₃, hended, hwithin fun ps late hmem => ?_⟩
  simp only [List.mem_cons, Creation.stored.injEq, reduceCtorEq, List.not_mem_nil, or_false]
    at hmem
  exact hmem.2

/-- Where there may be one policy, two requests are checked before either of them writes: both batches
are stored. -/
theorem two_stored_in_flight :
    let p : Policy := ⟨⟨"a", ""⟩, ⟨"b", "", "tcp", ⟨80, 81⟩⟩⟩
    let q : Policy := ⟨⟨"b", ""⟩, ⟨"a", "", "udp", ⟨53, 53⟩⟩⟩
    let s := countingDesk ["a", "b"] { maxPolicies := 1 }
    s.store = OpenStore.store ∧ morning.store.Reachable ∧
      morning.store.count ≤ s.limits.maxPolicies ∧
      ∃ w, s.InFlight morning [.stored [p] 0, .stored [q] 1] w ∧
        ¬ w.store.count ≤ s.limits.maxPolicies := by
  intro p q s
  let w₁ := ((s.creationStep (.accepted [p])).run morning).2
  let w₂ := ((s.creationStep (.accepted [q])).run w₁).2
  let w₃ := ((s.creationStep (.cleared [p] 0)).run w₂).2
  let w₄ := ((s.creationStep (.cleared [q] 0)).run w₃).2
  have hcheck : (s.creationStep (.accepted [p])).run morning = (.cleared [p] 0, w₁) :=
    turn_eq (by decide +kernel)
  have hcheck' : (s.creationStep (.accepted [q])).run w₁ = (.cleared [q] 0, w₂) :=
    turn_eq (by decide +kernel)
  have hwrite : (s.creationStep (.cleared [p] 0)).run w₂ = (.stored [p] 0, w₃) :=
    turn_eq (by decide +kernel)
  have hwrite' : (s.creationStep (.cleared [q] 0)).run w₃ = (.stored [q] 1, w₄) :=
    turn_eq (by decide +kernel)
  have haccepted : s.InFlight morning [.accepted [p], .accepted [q]] morning :=
    .accept [q] (.accept [p] .start)
  have hchecked : s.InFlight morning [.cleared [p] 0, .cleared [q] 0] w₂ :=
    .turn [.cleared [p] 0] (.turn [] haccepted hcheck) hcheck'
  have hwritten : s.InFlight morning [.stored [p] 0, .stored [q] 1] w₄ :=
    .turn [.stored [p] 0] (.turn [] hchecked hwrite) hwrite'
  refine ⟨rfl, .memory .oneByte 3, by decide, w₄, hwritten, ?_⟩
  decide +kernel

end Service
end NetworkPolicy
