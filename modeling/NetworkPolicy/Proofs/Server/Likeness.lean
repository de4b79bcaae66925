import NetworkPolicy.Proofs.Access.Likeness
import NetworkPolicy.Proofs.Server.Cleaning

/-! Servers that differ in the services they ask. Store calls, logs and samples go alike whatever
these are, so a cleaning goes alike as soon as the directories say the same. -/
namespace NetworkPolicy

variable {σ κ κ' α β γ δ ε ε' : Type} {R : κ → κ' → Prop} {Q : α → β → Prop}

/-- The worlds differ at most in the states of the other services, which are related. -/
structure World.Alike (R : κ → κ' → Prop) (w : World σ κ) (w' : World σ κ') : Prop where
  store : w.store = w'.store
  latency : w.latency = w'.latency
  collaborators : R w.collaborators w'.collaborators
  log : w.log = w'.log
  samples : w.samples = w'.samples
  now : w.now = w'.now
  epoch : w.epoch = w'.epoch

-- for times that are variables: nanoseconds are slow to count when terms are compared
theorem World.Alike.later {w : World σ κ} {w' : World σ κ'} (hw : w.Alike R w') {now now' : Nat}
    (h : now = now') : World.Alike R { w with now := now } { w' with now := now' } :=
  ⟨hw.store, hw.latency, hw.collaborators, hw.log, hw.samples, h, hw.epoch⟩

/-- The servers differ at most in the services that they ask and in how many applications they look
up at a time. -/
structure Service.Akin (s : Service σ κ) (s' : Service σ κ') : Prop where
  store : s.store = s'.store
  watched : s.watched = s'.watched
  storeDeadline : s.limits.storeDeadlineMillis = s'.limits.storeDeadlineMillis
  cleaner : s.limits.cleanerMillis = s'.limits.cleanerMillis
  logger : s.logger = s'.logger
  samples : s.samples = s'.samples

namespace Task

theorem outcome_bind_eq (t : Task σ κ ε α) (f : α → Task σ κ ε β) :
    (t >>= f).outcome.run = andThen t.outcome.run fun a => (f a).outcome.run := by
  funext w
  rw [outcome_bind, andThen]
  rcases t.outcome.run w with ⟨_ | _, _⟩ <;> rfl

theorem alike_pure {a : α} {b : β} (h : Q a b) :
    Alike (World.Alike R) Q (outcome (pure a : Task σ κ ε α)).run
      (outcome (pure b : Task σ κ' ε β)).run :=
  fun _ _ hw => ⟨.ok h, hw⟩

theorem alike_bind {P : γ → δ → Prop} {t : Task σ κ ε α} {t' : Task σ κ' ε β}
    {f : α → Task σ κ ε γ} {f' : β → Task σ κ' ε δ}
    (h : Alike (World.Alike R) Q t.outcome.run t'.outcome.run)
    (hf : ∀ a b, Q a b → Alike (World.Alike R) P (f a).outcome.run (f' b).outcome.run) :
    Alike (World.Alike R) P (t >>= f).outcome.run (t' >>= f').outcome.run := by
  rw [outcome_bind_eq, outcome_bind_eq]
  exact h.andThen hf

theorem alike_attempt {step : Effect σ κ (Except ε' α)} {step' : Effect σ κ' (Except ε' β)}
    (h : Alike (World.Alike R) Q step.run step'.run) (failure : ε' → ε) :
    Alike (World.Alike R) Q (attempt step failure).outcome.run
      (attempt step' failure).outcome.run := by
  intro w w' hw
  obtain ⟨hresult, hworlds⟩ := h w w' hw
  rw [outcome_attempt, outcome_attempt]
  refine ⟨?_, hworlds⟩
  generalize (step.run w).1 = x at hresult
  generalize (step'.run w').1 = y at hresult
  cases hresult with
  | ok hab => exact .ok hab
  | error => exact .error

end Task

namespace Service

variable {s : Service σ κ} {s' : Service σ κ'} {w : World σ κ} {w' : World σ κ'}

/-! ### Single steps -/

theorem log_alike (hs : s.Akin s') (hw : w.Alike R w') (sessions : List String) (level : LogLevel)
    (event : String) (data : Json) : ((s.log sessions level event data).run w).2.Alike R
      ((s'.log sessions level event data).run w').2 where
  store := hw.store
  latency := hw.latency
  collaborators := hw.collaborators
  log := by simp only [log, StateT.run, millis, hs.logger, hw.log, hw.now, hw.epoch]
  samples := hw.samples
  now := hw.now
  epoch := hw.epoch

theorem sample_alike (hs : s.Akin s') (hw : w.Alike R w') (x : Sample) :
    ((s.sample x).run w).2.Alike R ((s'.sample x).run w').2 := by
  simp only [sample, StateT.run, ← hs.samples]
  cases s.samples with
  | memory =>
    exact ⟨hw.store, hw.latency, hw.collaborators, hw.log, congrArg (· ++ [x]) hw.samples, hw.now,
      hw.epoch⟩
  | log =>
    refine ⟨hw.store, hw.latency, hw.collaborators, ?_, hw.samples, hw.now, hw.epoch⟩
    simp only [millis, hs.logger, hw.log, hw.now, hw.epoch]

theorem samples_alike (hs : s.Akin s') (hw : w.Alike R w') (xs : List Sample) :
    ((xs.forM s.sample).run w).2.Alike R ((xs.forM s'.sample).run w').2 := by
  induction xs generalizing w w' with
  | nil => exact hw
  | cons x xs ih => exact ih (sample_alike hs hw x)

theorem call_eq (s : Service σ κ) (c : StoreCall) (f : σ → Except StoreError α × σ)
    (w : World σ κ) : (s.call c f).run w = ((f w.store).1,
      let called := { w with store := (f w.store).2, now := w.now + w.latency }
      if s.watched then (((Observed.samplesOf c 0 (f w.store).1).forM s.sample).run called).2
      else called) := by
  by_cases hwatched : s.watched = true
  · simp only [call, hwatched, if_true]
    rfl
  · simp only [call, hwatched]
    rfl

theorem call_alike (hs : s.Akin s') (c : StoreCall) (f : σ → Except StoreError α × σ) :
    Alike (World.Alike R) Eq (s.call c f).run (s'.call c f).run := by
  intro w w' hw
  have hcalled : World.Alike R
      { w with store := (f w.store).2, now := w.now + w.latency }
      { w' with store := (f w.store).2, now := w'.now + w'.latency } :=
    ⟨rfl, hw.latency, hw.collaborators, hw.log, hw.samples, congrArg₂ (· + ·) hw.now hw.latency,
      hw.epoch⟩
  rw [call_eq, call_eq, ← hs.watched, ← hw.store]
  refine ⟨matching_refl _, ?_⟩
  dsimp only
  split
  · exact samples_alike hs hcalled _
  · exact hcalled

theorem run_unless_eq (P : World σ κ → Prop) [DecidablePred P] (later : World σ κ → World σ κ) (r : α)
    (f : Effect σ κ α) (w : World σ κ) :
    StateT.run (do
      let w ← get
      if P w then
        set (later w)
        return r
      else f : Effect σ κ α) w = if P w then (r, later w) else f.run w := by
  change StateT.run (if P w then _ else f) w = _
  split <;> rfl

/-- A read is given up where the store is reached too late. -/
theorem read_eq (s : Service σ κ) (c : StoreCall) (f : σ → Except StoreError α × σ) (w : World σ κ) :
    (s.read c f).run w = if s.deadline < w.latency then
      (.error (.timeout s.limits.storeDeadlineMillis), { w with now := w.now + s.deadline })
      else (s.call c f).run w :=
  run_unless_eq (fun w => s.deadline < w.latency)
    (fun w => { w with now := w.now + s.deadline }) _ (s.call c f) w

theorem read_alike (hs : s.Akin s') (c : StoreCall) (f : σ → Except StoreError α × σ) :
    Alike (World.Alike R) Eq (s.read c f).run (s'.read c f).run := by
  intro w w' hw
  have hdeadline : s.deadline = s'.deadline := by rw [deadline, deadline, hs.storeDeadline]
  rw [read_eq, read_eq, ← hdeadline, ← hs.storeDeadline]
  by_cases hlate : s.deadline < w.latency
  · have hlate' : s.deadline < w'.latency := hw.latency ▸ hlate
    rw [if_pos hlate, if_pos hlate']
    exact ⟨.error, hw.later (congrArg (· + s.deadline) hw.now)⟩
  · have hlate' : ¬ s.deadline < w'.latency := hw.latency ▸ hlate
    rw [if_neg hlate, if_neg hlate']
    exact call_alike hs c f w w' hw

theorem all_alike (hs : s.Akin s') : Alike (World.Alike R) Eq s.all.run s'.all.run := by
  rw [all, all, hs.store]
  exact read_alike hs .all s'.store.all

theorem delete_alike (hs : s.Akin s') (ps : List Policy) :
    Alike (World.Alike R) Eq (s.delete ps).run (s'.delete ps).run := by
  intro w w' hw
  have hrun : (s.delete ps).run w = _ :=
    run_at (fun w => s.call .delete (s.store.delete ps (some (s.timeLimit w)))) w
  have hrun' : (s'.delete ps).run w' = _ :=
    run_at (fun w => s'.call .delete (s'.store.delete ps (some (s'.timeLimit w)))) w'
  have hlimit : s.timeLimit w = s'.timeLimit w' := by
    simp only [timeLimit, deadline, hs.storeDeadline, hw.now, hw.latency]
  rw [hrun, hrun', hs.store, hlimit]
  exact call_alike hs .delete _ w w' hw

theorem askWithin_alike {call : κ → Reply α × κ} {call' : κ' → Reply β × κ'}
    (h : RepliedAlike R Q call call') (timeout : Nat) :
    Alike (World.Alike (σ := σ) R) Q (askWithin timeout call).run (askWithin timeout call').run := by
  intro w w' hw
  obtain ⟨hreply, hstates⟩ := h _ _ hw.collaborators
  simp only [askWithin, StateT.run]
  rcases hcall : call w.collaborators with ⟨r, k⟩
  rcases hcall' : call' w'.collaborators with ⟨r', k'⟩
  rw [hcall, hcall'] at hreply hstates
  cases hreply with
  | answer hmatch =>
    exact ⟨hmatch, hw.store, hw.latency, hstates, hw.log, hw.samples, hw.now, hw.epoch⟩
  | silence =>
    exact ⟨.error, hw.store, hw.latency, hstates, hw.log, hw.samples,
      congrArg (· + timeout * nanosPerMilli) hw.now, hw.epoch⟩

/-! ### Cleanings -/

/-- The same applications, in whatever order and however often. -/
def SameMembers (live live' : List String) : Prop := ∀ g, g ∈ live ↔ g ∈ live'

theorem stale_congr {live live' : List String} (h : SameMembers live live') (ps : List Policy) :
    stale live ps = stale live' ps := by
  have hcontains : ∀ g, live.contains g = live'.contains g := fun g => by
    rw [Bool.eq_iff_iff, List.contains_iff_mem, List.contains_iff_mem, h g]
  have hempty : live.isEmpty = live'.isEmpty := by
    rw [Bool.eq_iff_iff, List.isEmpty_iff, List.isEmpty_iff, List.eq_nil_iff_forall_not_mem,
      List.eq_nil_iff_forall_not_mem]
    exact forall_congr' fun g => not_congr (h g)
  simp only [stale, Policy.isLive, hcontains, hempty]

theorem remove_alike (hs : s.Akin s') (gone : List Policy) :
    Alike (World.Alike R) Eq (s.remove gone).run (s'.remove gone).run := by
  intro w w' hw
  obtain ⟨hresult, hworlds⟩ := delete_alike hs gone w w' hw
  cases hdelete : (s.delete gone).run w with
  | mk r w₁ =>
    cases hdelete' : (s'.delete gone).run w' with
    | mk r' w₁' =>
      rw [hdelete, hdelete'] at hresult hworlds
      cases hresult with
      | ok =>
        rw [remove_ok hdelete, remove_ok hdelete']
        exact ⟨.ok rfl, log_alike hs hworlds _ _ _ _⟩
      | error =>
        rw [remove_error hdelete, remove_error hdelete']
        exact ⟨.error, hworlds⟩

theorem sweep_alike (hs : s.Akin s') {live live' : List String} (h : SameMembers live live')
    (ps : List Policy) : Alike (World.Alike R) Eq (s.sweep ps live).outcome.run
      (s'.sweep ps live').outcome.run := by
  unfold sweep
  rw [stale_congr h ps]
  have hstale : Alike (World.Alike (σ := σ) R) Eq
      (pure (stale live' ps) : Effect σ κ _).run (pure (stale live' ps) : Effect σ κ' _).run :=
    fun _ _ hw => ⟨matching_refl _, hw⟩
  refine Task.alike_bind (Task.alike_attempt hstale _) ?_
  rintro gone _ rfl
  split
  · exact Task.alike_pure rfl
  · refine Task.alike_bind (Task.alike_attempt (remove_alike hs gone) _) ?_
    rintro _ _ -
    exact Task.alike_pure rfl

/-- Cleanings go alike if the directories say of the same applications that they exist. -/
theorem clean_alike (hs : s.Akin s') {P : String → String → Prop}
    (htoken : RepliedAlike R P s.collaborators.serviceToken s'.collaborators.serviceToken)
    (hlive : ∀ token token' ps, P token token' → Alike (World.Alike (σ := σ) R) SameMembers
      (s.liveAmong token (batches s.limits.batchSize (namedApps ps)) []).outcome.run
      (s'.liveAmong token' (batches s'.limits.batchSize (namedApps ps)) []).outcome.run) :
    Alike (World.Alike R) Eq s.clean.outcome.run s'.clean.outcome.run := by
  unfold clean cleanWith
  rw [← hs.cleaner]
  refine Task.alike_bind (Task.alike_attempt (askWithin_alike htoken _) _) fun token token' ht => ?_
  refine Task.alike_bind (Task.alike_attempt (all_alike hs) _) ?_
  rintro ps _ rfl
  exact Task.alike_bind (hlive token token' ps ht) fun live live' h => sweep_alike hs h ps

/-- Directories that answer alike say of the same applications that they exist. -/
theorem liveAmong_alike (hs : s.Akin s') (h : s.collaborators.Alike R s'.collaborators)
    (token : String) (bs : List (List String)) (found : List String) :
    Alike (World.Alike (σ := σ) R) Eq (s.liveAmong token bs found).outcome.run
      (s'.liveAmong token bs found).outcome.run := by
  induction bs generalizing found with
  | nil => exact Task.alike_pure rfl
  | cons apps bs ih =>
    unfold liveAmong
    rw [← hs.cleaner]
    refine Task.alike_bind
      (Task.alike_attempt (askWithin_alike (h.liveApps token apps) _) _) ?_
    rintro live _ rfl
    exact ih (found ++ live)

end Service
end NetworkPolicy
