import NetworkPolicy.Proofs.Store.Realization
import NetworkPolicy.Server.Failure

/-! What the steps of a server do to its store: a log entry, a sample and a question to another
service leave it alone, and a store call does to it what the store does. -/
namespace NetworkPolicy

namespace Task

variable {σ κ δ ε α β : Type} {step : Effect σ κ (Except δ α)} {t : Task σ κ ε α} {w w' : World σ κ}

theorem outcome_lift (step : Effect σ κ α) (w : World σ κ) :
    (outcome (liftM step : Task σ κ ε α)).run w = (.ok (step.run w).1, (step.run w).2) := rfl

theorem outcome_bind_ok {a : α} (h : t.outcome.run w = (.ok a, w')) (f : α → Task σ κ ε β) :
    (t >>= f).outcome.run w = (f a).outcome.run w' := by
  rw [outcome_bind, h]

theorem outcome_bind_error {e : ε} (h : t.outcome.run w = (.error e, w')) (f : α → Task σ κ ε β) :
    (t >>= f).outcome.run w = (.error e, w') := by
  rw [outcome_bind, h]

theorem fails_bind {e : ε} {P : World σ κ → Prop}
    (h : ∃ w', t.outcome.run w = (.error e, w') ∧ P w') (f : α → Task σ κ ε β) :
    ∃ w', (t >>= f).outcome.run w = (.error e, w') ∧ P w' := by
  obtain ⟨w', hrun, hw'⟩ := h
  exact ⟨w', outcome_bind_error hrun f, hw'⟩

theorem outcome_attempt_ok {a : α} (h : step.run w = (.ok a, w')) (failure : δ → ε)
    (f : α → Task σ κ ε β) : (attempt step failure >>= f).outcome.run w = (f a).outcome.run w' := by
  rw [outcome_bind, outcome_attempt, h]
  rfl

theorem outcome_attempt_error {e : δ} (h : step.run w = (.error e, w')) (failure : δ → ε)
    (f : α → Task σ κ ε β) :
    (attempt step failure >>= f).outcome.run w = (.error (failure e), w') := by
  rw [outcome_bind, outcome_attempt, h]
  rfl

end Task

/-- The second world differs from the first at most in time and in what was logged and sampled. -/
structure World.Quiet {σ κ : Type} (w w' : World σ κ) : Prop where
  store : w'.store = w.store
  collaborators : w'.collaborators = w.collaborators

theorem World.Quiet.trans {σ κ : Type} {w w' w'' : World σ κ} (h : w.Quiet w') (h' : w'.Quiet w'') :
    w.Quiet w'' :=
  ⟨h'.store.trans h.store, h'.collaborators.trans h.collaborators⟩

namespace Service

variable {σ κ α : Type} (s : Service σ κ) {w w' : World σ κ}

/-! ### Requirements -/

section Require

variable {ε : Type} {s} {step : Effect σ κ (Except ε α)} {sessions : List String} {event : String}
  {cause : ε → String} {f : ε → Failure}

theorem require_ok {a : α} (h : step.run w = (.ok a, w')) :
    (s.require sessions event cause f step).outcome.run w = (.ok a, w') := by
  have hstep : (Task.outcome (liftM step : Pipeline σ κ _)).run w = (.ok (.ok a), w') := by
    rw [Task.outcome_lift, h]
  rw [require, Task.outcome_bind_ok hstep]
  rfl

theorem require_error {e : ε} (h : step.run w = (.error e, w')) :
    ∃ w'', (s.require sessions event cause f step).outcome.run w = (.error (f e), w'') ∧
      w'.Quiet w'' := by
  have hstep : (Task.outcome (liftM step : Pipeline σ κ _)).run w = (.ok (.error e), w') := by
    rw [Task.outcome_lift, h]
  rw [require, Task.outcome_bind_ok hstep]
  exact ⟨_, rfl, rfl, rfl⟩

end Require

theorem inquire_run {q : Inquiry κ α} {r : Except ServiceError α} {k : κ}
    (h : q.outcome w.collaborators = (r, k)) :
    (inquire q).run w = (r, { w with collaborators := k }) := by
  simp only [inquire, StateT.run, h]

theorem sample_quiet (s : Service σ κ) (x : Sample) (w : World σ κ) :
    w.Quiet ((s.sample x).run w).2 := by
  simp only [sample, StateT.run]
  cases s.samples <;> exact ⟨rfl, rfl⟩

theorem samples_quiet (s : Service σ κ) (xs : List Sample) (w : World σ κ) :
    w.Quiet ((xs.forM s.sample).run w).2 := by
  induction xs generalizing w with
  | nil => exact ⟨rfl, rfl⟩
  | cons x xs ih =>
    have hrun : ((x :: xs).forM s.sample).run w =
        (xs.forM s.sample).run ((s.sample x).run w).2 := rfl
    rw [hrun]
    exact (s.sample_quiet x w).trans (ih _)

theorem askWithin_store {timeout : Nat} {f : κ → Reply α × κ} {r : Except ServiceError α}
    (h : (askWithin (σ := σ) timeout f).run w = (r, w')) : w'.store = w.store := by
  simp only [askWithin, StateT.run] at h
  split at h <;> exact (congrArg (·.2.store) h).symm

theorem askWithin_eq_ok {timeout : Nat} {f : κ → Reply α × κ} {a : α}
    (h : (askWithin (σ := σ) timeout f).run w = (.ok a, w')) :
    (f w.collaborators).1 = .answer (.ok a) := by
  simp only [askWithin, StateT.run] at h
  split at h
  · rename_i hf
    rw [hf, (Prod.mk.inj h).1]
  · cases h

/-! ### Store calls -/

/-- A store call gives what the store gives, and does to the world what it does to the store. -/
theorem call_run (c : StoreCall) (f : σ → Except StoreError α × σ) (w : World σ κ) :
    ∃ w', (s.call c f).run w = ((f w.store).1, w') ∧
      World.Quiet { w with store := (f w.store).2 } w' := by
  let called : World σ κ := { w with store := (f w.store).2, now := w.now + w.latency }
  by_cases hwatched : s.watched = true
  · have hsampled := s.samples_quiet (Observed.samplesOf c 0 (f w.store).1) called
    refine ⟨_, ?_, hsampled.store, hsampled.collaborators⟩
    simp only [call, hwatched]
    rfl
  · refine ⟨called, ?_, rfl, rfl⟩
    simp only [call, hwatched]
    rfl

/-- A step that gives up, or makes another. -/
theorem run_unless (P : World σ κ → Prop) [DecidablePred P] (now : World σ κ → Nat) (r : α)
    (f : Effect σ κ α) (w : World σ κ) :
    let step : Effect σ κ α := do
      let w ← get
      if P w then
        set { w with now := now w }
        return r
      else f
    ¬ P w ∧ step.run w = f.run w ∨ P w ∧ ∃ w', step.run w = (r, w') ∧ w.Quiet w' := by
  change ¬ P w ∧ StateT.run (if P w then _ else f) w = _ ∨
    P w ∧ ∃ w', StateT.run (if P w then _ else f) w = (r, w') ∧ w.Quiet w'
  split
  · rename_i hP
    exact Or.inr ⟨hP, _, rfl, rfl, rfl⟩
  · rename_i hP
    exact Or.inl ⟨hP, rfl⟩

/-- A read gives what the store gives, unless it comes too late to the store. -/
theorem read_run (c : StoreCall) (f : σ → Except StoreError α × σ) (w : World σ κ) :
    (¬ s.deadline < w.latency ∧ ∃ w', (s.read c f).run w = ((f w.store).1, w') ∧
      World.Quiet { w with store := (f w.store).2 } w') ∨
    (s.deadline < w.latency ∧ ∃ w',
      (s.read c f).run w = (.error (.timeout s.limits.storeDeadlineMillis), w') ∧ w.Quiet w') := by
  -- by a lemma for any deadline, since nanoseconds are slow to count when terms are compared
  have hrun : ¬ s.deadline < w.latency ∧ (s.read c f).run w = (s.call c f).run w ∨ _ :=
    run_unless (fun w => s.deadline < w.latency) (fun w => w.now + s.deadline) _ _ w
  refine hrun.imp_left fun ⟨htime, hrun⟩ => ⟨htime, ?_⟩
  rw [hrun]
  exact s.call_run c f w

theorem read_asks_nobody {c : StoreCall} {f : σ → Except StoreError α × σ}
    {r : Except StoreError α} (hrun : (s.read c f).run w = (r, w')) :
    w'.collaborators = w.collaborators := by
  rcases s.read_run c f w with ⟨-, w'', hread, hquiet⟩ | ⟨-, w'', hread, hquiet⟩
  all_goals
    cases hrun.symm.trans hread
    exact hquiet.collaborators

/-- What is read does not depend on the other services. -/
theorem read_collaborators (c : StoreCall) (f : σ → Except StoreError α × σ) (w : World σ κ)
    (k : κ) : ((s.read c f).run { w with collaborators := k }).1 = ((s.read c f).run w).1 := by
  rcases s.read_run c f { w with collaborators := k } with
    ⟨htime, w₁, hrun, -⟩ | ⟨htime, w₁, hrun, -⟩
  all_goals
    rcases s.read_run c f w with ⟨htime', w₂, hrun', -⟩ | ⟨htime', w₂, hrun', -⟩
    all_goals rw [hrun, hrun']
  · exact absurd htime' htime
  · exact absurd htime htime'

variable {s} {S : Standing σ} {m : MemoryStore}

/-- What a server reads is what would be read in memory, and reading changes nothing. -/
theorem read_ended {c : StoreCall} {f : σ → Except StoreError α × σ} {a : α}
    (hs : S.stands w.store m) (h : S.Ended w.store m (.ok (a, m)) (f w.store))
    {r : Except StoreError α} (hrun : (s.read c f).run w = (r, w')) :
    S.stands w'.store m ∧ ∀ b, r = .ok b → b = a := by
  rcases s.read_run c f w with ⟨-, w'', hread, hquiet⟩ | ⟨-, w'', hread, hquiet⟩
  · obtain ⟨rfl, rfl⟩ := Prod.mk.inj (hrun.symm.trans hread)
    rw [hquiet.store]
    generalize f w.store = x at h
    cases h with
    | done hideal _ _ hs' =>
      cases hideal
      exact ⟨hs', fun b hb => (Except.ok.inj hb).symm⟩
    | failed hideal _ _ => exact nomatch hideal
    | refused _ _ hs' => exact ⟨hs', fun b hb => nomatch hb⟩
  · obtain ⟨rfl, rfl⟩ := Prod.mk.inj (hrun.symm.trans hread)
    exact ⟨hquiet.store ▸ hs, fun b hb => nomatch hb⟩

/-- A server fails to read only when the call comes too late to the store, or is refused there. -/
theorem read_error {c : StoreCall} {f : σ → Except StoreError α × σ} {a : α}
    (h : S.Ended w.store m (.ok (a, m)) (f w.store)) {e : StoreError}
    (hrun : (s.read c f).run w = (.error e, w')) :
    s.deadline < w.latency ∨ S.refused w.store w'.store := by
  rcases s.read_run c f w with ⟨-, w'', hread, hquiet⟩ | ⟨hlate, -, -⟩
  · obtain ⟨hfailed, rfl⟩ := Prod.mk.inj (hrun.symm.trans hread)
    rw [hquiet.store]
    generalize f w.store = x at h hfailed
    cases h with
    | done hideal _ _ _ =>
      cases hideal
      exact nomatch hfailed
    | failed hideal _ _ => exact nomatch hideal
    | refused hrefused _ _ => exact Or.inr hrefused
  · exact Or.inl hlate

theorem run_at (f : World σ κ → Effect σ κ α) (w : World σ κ) :
    (do let w ← get; f w : Effect σ κ α).run w = (f w).run w := rfl

/-- Makes a write of either kind. -/
def write (s : Service σ κ) : Write → List Policy → Effect σ κ (Except StoreError Unit)
  | .create => s.create
  | .delete => s.delete

theorem write_call (s : Service σ κ) (c : Write) (ps : List Policy) (w : World σ κ) :
    ∃ w', (s.write c ps).run w =
        ((s.store.write c ps (some (s.timeLimit w)) w.store).1, w') ∧
      World.Quiet { w with store := (s.store.write c ps (some (s.timeLimit w)) w.store).2 } w' := by
  cases c with
  | create =>
    have hrun : (s.create ps).run w = _ :=
      run_at (fun w => s.call .create (s.store.create ps (some (s.timeLimit w)))) w
    rw [write, hrun]
    exact s.call_run .create (s.store.create ps (some (s.timeLimit w))) w
  | delete =>
    have hrun : (s.delete ps).run w = _ :=
      run_at (fun w => s.call .delete (s.store.delete ps (some (s.timeLimit w)))) w
    rw [write, hrun]
    exact s.call_run .delete (s.store.delete ps (some (s.timeLimit w))) w

/-- A write that succeeds carries the batch out in memory; one that fails changes nothing. -/
theorem write_run (h : S.Realizes s.store) (hs : S.stands w.store m) {c : Write} {ps : List Policy}
    {r : Except StoreError Unit} (hrun : (s.write c ps).run w = (r, w')) :
    match r with
    | .ok _ => ∃ m', m.written c ps = .ok m' ∧ S.stands w'.store m'
    | .error _ => S.stands w'.store m := by
  obtain ⟨w'', hcall, hquiet⟩ := s.write_call c ps w
  have hr : r = _ := congrArg Prod.fst (hrun.symm.trans hcall)
  have hw : w'.store = _ := (congrArg (·.2.store) (hrun.symm.trans hcall)).trans hquiet.store
  have hended := h.write hs c ps (some (s.timeLimit w))
  generalize s.store.write c ps (some (s.timeLimit w)) w.store = x at hended hr hw
  cases hended with
  | done hideal _ _ hs' =>
    obtain ⟨-, -, hwritten⟩ := MemoryStore.attempt_eq_ok.mp hideal
    subst hr
    exact ⟨_, hwritten, hw ▸ hs'⟩
  | failed _ _ hs' =>
    subst hr
    exact hw ▸ hs'
  | refused _ _ hs' =>
    subst hr
    exact hw ▸ hs'

/-- A deletion that succeeds takes the batch out of the store; one that fails changes nothing. -/
theorem delete_run (h : S.Realizes s.store) (hs : S.stands w.store m) {ps : List Policy}
    {r : Except StoreError Unit} (hrun : (s.delete ps).run w = (r, w')) :
    match r with
    | .ok _ => S.stands w'.store (m.without ps)
    | .error _ => S.stands w'.store m := by
  have hwrite := write_run (c := .delete) h hs hrun
  cases r with
  | ok _ =>
    obtain ⟨_, hwritten, hs'⟩ := hwrite
    cases hwritten
    exact hs'
  | error _ => exact hwrite

end Service
end NetworkPolicy
