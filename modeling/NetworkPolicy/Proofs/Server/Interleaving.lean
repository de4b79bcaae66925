import NetworkPolicy.Proofs.Server.Cleaning
import NetworkPolicy.Proofs.Store.Atomicity

/-! Runs of the cleaner that are interleaved with each other and with other calls on one store. A run
deletes what was stale when it read the policies, from a store that may have changed since: deletion
looks the groups up anew and passes over policies that are gone, so that it never takes away one between
live applications. -/
namespace NetworkPolicy

/-- Both applications of the policy exist. -/
def Policy.isKnown (known : String → Bool) (p : Policy) : Bool :=
  known p.source.id && known p.destination.id

/-- Deleting policies of applications that do not exist leaves those of applications that do. -/
theorem MemoryStore.Valid.known_without {m : MemoryStore} (hm : m.Valid) {known : String → Bool}
    {gone : List Policy} (hgone : ∀ p ∈ gone, p.isKnown known = false) :
    (m.without gone).policies.filter (·.isKnown known) =
      m.policies.filter (·.isKnown known) := by
  have hkept : ∀ p : Policy, p.isKnown known = true →
      (gone.map Policy.key).contains p.key = false := by
    intro p hp
    rw [← Bool.not_eq_true, List.contains_iff_mem, List.mem_map]
    rintro ⟨q, hq, hkey⟩
    simp only [Policy.key, Policy.Key.mk.injEq] at hkey
    have hsame : q.isKnown known = p.isKnown known := by
      rw [Policy.isKnown, Policy.isKnown, hkey.1, hkey.2.1]
    exact Bool.false_ne_true ((hgone q hq).symm.trans (hsame.trans hp))
  rw [hm.policies_without, List.filter_filter]
  refine List.filter_congr fun p _ => ?_
  cases hp : p.isKnown known with
  | true => rw [hkept p hp, Bool.not_false, Bool.and_self]
  | false => rw [Bool.false_and]

/-! ### The steps of a run -/

/-- How far a run of the cleaner has come. -/
inductive Cleaning where
  | begun
  | trusted (token : String)
  /-- The policies were read; the batches `rest` of their applications are still to be looked up. -/
  | asking (token : String) (ps : List Policy) (rest : List (List String)) (found : List String)
  | deleting (ps gone : List Policy)
  | failed (e : CleanError)
  | finished (ps gone : List Policy)

namespace Cleaning

/-- The policies that the run has read. -/
def snapshot? : Cleaning → Option (List Policy)
  | asking _ ps _ _ | deleting ps _ | finished ps _ => some ps
  | _ => none

/-- What the directory's answers come to. -/
def settle (ps : List Policy) (live : List String) : Cleaning :=
  match stale live ps with
  | .error e => failed (.service e)
  | .ok gone => if gone.isEmpty then finished ps [] else deleting ps gone

theorem snapshot?_settle {ps ps' : List Policy} {live : List String}
    (h : (settle ps live).snapshot? = some ps') : some ps = some ps' := by
  unfold settle at h
  split at h
  · exact nomatch h
  · split_ifs at h <;> exact h

end Cleaning

namespace Service

section

variable {σ κ α δ : Type} (s : Service σ κ)

/-- Goes on with the answer of a call, or fails. -/
def advance (step : Effect σ κ (Except δ α)) (failure : δ → CleanError) (next : α → Cleaning) :
    Effect σ κ Cleaning := do
  match ← step with
  | .ok a => return next a
  | .error e => return .failed (failure e)

/-- The next step of a run: one call of the store or of another service, or a decision. -/
def proceed : Cleaning → Effect σ κ Cleaning
  | .begun =>
    advance (askWithin s.limits.cleanerMillis s.collaborators.serviceToken) .service .trusted
  | .trusted token =>
    advance s.all .store fun ps =>
      .asking token ps (batches s.limits.batchSize (namedApps ps)) []
  | .asking token ps (apps :: rest) found =>
    advance (askWithin s.limits.cleanerMillis (s.collaborators.liveApps token apps)) .service
      fun live => .asking token ps rest (found ++ live)
  | .asking _ ps [] live => return .settle ps live
  | .deleting ps gone => advance (s.remove gone) .store fun _ => .finished ps gone
  | .failed e => return .failed e
  | .finished ps gone => return .finished ps gone

/-- How a run ends that goes on with nothing in between, and the world then. -/
inductive Concludes : Cleaning → World σ κ → Except CleanError (List Policy) × World σ κ → Prop where
  | failed (e : CleanError) (w : World σ κ) : Concludes (.failed e) w (.error e, w)
  | finished (ps gone : List Policy) (w : World σ κ) : Concludes (.finished ps gone) w (.ok gone, w)
  | step {c c₁ : Cleaning} {w w₁ : World σ κ} {x : Except CleanError (List Policy) × World σ κ} :
      (s.proceed c).run w = (c₁, w₁) → Concludes c₁ w₁ x → Concludes c w x

variable {s} {c c' : Cleaning} {w w₁ w' : World σ κ} {call : Effect σ κ (Except δ α)}
  {failure : δ → CleanError} {next : α → Cleaning}

theorem advance_ok {a : α} (h : call.run w = (.ok a, w₁)) :
    (advance call failure next).run w = (next a, w₁) := by
  rw [advance, StateT.run_bind, h]
  rfl

theorem advance_error {e : δ} (h : call.run w = (.error e, w₁)) :
    (advance call failure next).run w = (.failed (failure e), w₁) := by
  rw [advance, StateT.run_bind, h]
  rfl

/-! ### A run alone -/

variable {token : String} {ps : List Policy} {rest : List (List String)} {live found : List String}

theorem concludes_sweep (token : String) (ps : List Policy) (live : List String) (w : World σ κ) :
    s.Concludes (.asking token ps [] live) w ((s.sweep ps live).outcome.run w) := by
  have hsettle : (s.proceed (.asking token ps [] live)).run w = (.settle ps live, w) := rfl
  refine .step hsettle ?_
  have hrun : ∀ r, (pure r : Effect σ κ (Except ServiceError (List Policy))).run w = (r, w) :=
    fun _ => rfl
  rw [Cleaning.settle, sweep]
  rcases stale live ps with e | gone
  · rw [Task.outcome_attempt_error (hrun _)]
    exact .failed _ w
  · rw [Task.outcome_attempt_ok (hrun _)]
    dsimp only
    by_cases hgone : gone.isEmpty = true
    · rw [if_pos hgone, if_pos hgone]
      exact .finished ps [] w
    · rw [if_neg hgone, if_neg hgone]
      rcases hremove : (s.remove gone).run w with ⟨e | a, w₁⟩
      · rw [Task.outcome_attempt_error hremove]
        exact .step (advance_error hremove) (.failed _ w₁)
      · rw [Task.outcome_attempt_ok hremove]
        exact .step (advance_ok hremove) (.finished ps gone w₁)

theorem concludes_asking (token : String) (ps : List Policy) (rest : List (List String))
    (found : List String) (w : World σ κ) :
    s.Concludes (.asking token ps rest found) w
      ((s.liveAmong token rest found >>= s.sweep ps).outcome.run w) := by
  induction rest generalizing found w with
  | nil => exact concludes_sweep token ps found w
  | cons apps rest ih =>
    rw [Task.outcome_bind, liveAmong]
    rcases hask : (askWithin s.limits.cleanerMillis (s.collaborators.liveApps token apps)).run w with
      ⟨e | live, w₁⟩
    · rw [Task.outcome_attempt_error hask]
      exact .step (advance_error hask) (.failed _ w₁)
    · rw [Task.outcome_attempt_ok hask, ← Task.outcome_bind]
      exact .step (advance_ok hask) (ih (found ++ live) w₁)

/-- With nothing in between, the steps of a run come to what the cleaner does in one go. -/
theorem concludes_clean (s : Service σ κ) (w : World σ κ) :
    s.Concludes .begun w (s.clean.outcome.run w) := by
  rw [clean]
  rcases htoken : (askWithin s.limits.cleanerMillis s.collaborators.serviceToken).run w with
    ⟨e | token, w₁⟩
  · rw [Task.outcome_attempt_error htoken]
    exact .step (advance_error htoken) (.failed _ w₁)
  · rw [Task.outcome_attempt_ok htoken]
    rw [cleanWith]
    refine .step (advance_ok htoken) ?_
    rcases hall : s.all.run w₁ with ⟨e | ps, w₂⟩
    · rw [Task.outcome_attempt_error hall]
      exact .step (advance_error hall) (.failed _ w₂)
    · rw [Task.outcome_attempt_ok hall]
      exact .step (advance_ok hall) (concludes_asking token ps _ [] w₂)

/-! ### What a run knows -/

theorem advance_cases (h : (advance call failure next).run w = (c', w')) :
    (∃ a, call.run w = (.ok a, w') ∧ c' = next a) ∨
      ∃ e, call.run w = (.error e, w') ∧ c' = .failed (failure e) := by
  rcases hcall : call.run w with ⟨e | a, w₁⟩
  · cases h.symm.trans (advance_error hcall)
    exact Or.inr ⟨e, rfl, rfl⟩
  · cases h.symm.trans (advance_ok hcall)
    exact Or.inl ⟨a, rfl, rfl⟩

theorem remove_cases {gone : List Policy} {r : Except StoreError Unit}
    (h : (s.remove gone).run w = (r, w')) :
    ∃ w₁, (s.delete gone).run w = (r, w₁) ∧ w'.store = w₁.store := by
  rcases hdelete : (s.delete gone).run w with ⟨e | a, w₁⟩
  · cases h.symm.trans (remove_error hdelete)
    exact ⟨w', rfl, rfl⟩
  · cases h.symm.trans (remove_ok hdelete)
    exact ⟨w₁, rfl, rfl⟩

/-- What a run has found so far are those of the applications asked for that exist, and what it deletes
are the policies that it has read of applications that do not. -/
def Honest (s : Service σ κ) (known : String → Bool) : Cleaning → Prop
  | .asking _ ps rest found => ∃ asked, batches s.limits.batchSize (namedApps ps) = asked ++ rest ∧
      (∀ g ∈ found, known g = true) ∧ ∀ g ∈ asked.flatten, known g = true → g ∈ found
  | .deleting ps gone | .finished ps gone => gone = ps.filter (!·.isKnown known)
  | _ => True

variable {known : String → Bool}

theorem honest_answered {apps : List String}
    (h : s.Honest known (.asking token ps (apps :: rest) found))
    (hanswer : ∀ g, (g ∈ live → known g = true) ∧ (g ∈ apps → known g = true → g ∈ live)) :
    s.Honest known (.asking token ps rest (found ++ live)) := by
  obtain ⟨asked, hbatches, hsound, hcomplete⟩ := h
  refine ⟨asked ++ [apps], ?_, ?_, ?_⟩
  · rw [hbatches, List.append_assoc, List.singleton_append]
  · intro g hg
    rcases List.mem_append.mp hg with hg | hg
    · exact hsound g hg
    · exact (hanswer g).1 hg
  · intro g hg hk
    rw [List.flatten_append, List.flatten_singleton] at hg
    rcases List.mem_append.mp hg with hg | hg
    · exact List.mem_append_left _ (hcomplete g hg hk)
    · exact List.mem_append_right _ ((hanswer g).2 hg hk)

theorem honest_settle (h : s.Honest known (.asking token ps [] live)) :
    s.Honest known (.settle ps live) := by
  obtain ⟨asked, hbatches, hsound, hcomplete⟩ := h
  have hasked : asked.flatten = namedApps ps := by
    rw [← List.append_nil asked, ← hbatches, flatten_batches]
  have hlive : ∀ p ∈ ps, p.isLive live = p.isKnown known := by
    intro p hp
    have hend : ∀ g ∈ p.ends, live.contains g = known g := by
      intro g hg
      have hnamed : g ∈ asked.flatten := hasked ▸ mem_namedApps.mpr ⟨p, hp, hg⟩
      rw [Bool.eq_iff_iff, List.contains_iff_mem]
      exact ⟨hsound g, hcomplete g hnamed⟩
    rw [Policy.isLive, Policy.isKnown, hend _ List.mem_cons_self,
      hend _ (List.mem_cons_of_mem _ List.mem_cons_self)]
  have hstale : ps.filter (!·.isLive live) = ps.filter (!·.isKnown known) :=
    List.filter_congr fun p hp => congrArg (! ·) (hlive p hp)
  unfold Cleaning.settle stale
  split_ifs
  · trivial
  · dsimp only
    split_ifs with hgone
    · exact (List.isEmpty_iff.mp hgone).symm.trans hstale
    · exact hstale

/-- What a step of a run does, where the store stands for `m`: the run stays honest, a policy list that
it holds then was read before or is what is stored, and only policies of applications that do not exist
are taken out of the store. -/
structure Turn (S : Standing σ) (s : Service σ κ) (known : String → Bool) (m : MemoryStore)
    (c c' : Cleaning) (w' : World σ κ) : Prop where
  honest : s.Honest known c'
  snapshot : ∀ ps, c'.snapshot? = some ps →
    c.snapshot? = some ps ∨ c.snapshot? = none ∧ ps = m.policies
  store : ∃ gone, (∀ p ∈ gone, p.isKnown known = false) ∧ S.stands w'.store (m.without gone)

variable {S : Standing σ} {m : MemoryStore}

theorem exists_gone (known : String → Bool) (hs : S.stands w'.store m) :
    ∃ gone, (∀ p ∈ gone, p.isKnown known = false) ∧ S.stands w'.store (m.without gone) :=
  ⟨[], fun _ hp => absurd hp List.not_mem_nil, (S.valid hs).without_nil.symm ▸ hs⟩

theorem Turn.idle (honest : s.Honest known c')
    (hsame : ∀ ps, c'.snapshot? = some ps → c.snapshot? = some ps) (hs : S.stands w'.store m) :
    s.Turn S known m c c' w' where
  honest := honest
  snapshot := fun ps hps => Or.inl (hsame ps hps)
  store := exists_gone known hs

theorem Turn.failed {e : CleanError} (hs : S.stands w'.store m) :
    s.Turn S known m c (.failed e) w' :=
  .idle trivial (fun _ hps => nomatch hps) hs

theorem turn_of_proceed (hr : S.Realizes s.store) (hs : S.stands w.store m)
    (hknown : s.AnswersFrom (known · = true)) (h : s.Honest known c)
    (hrun : (s.proceed c).run w = (c', w')) : s.Turn S known m c c' w' := by
  cases c with
  | failed e | finished ps gone =>
    cases hrun
    exact .idle h (fun _ => id) hs
  | begun =>
    rcases advance_cases hrun with ⟨token, hask, rfl⟩ | ⟨e, hask, rfl⟩
    · exact .idle trivial (fun _ => id) (askWithin_store hask ▸ hs)
    · exact .failed (askWithin_store hask ▸ hs)
  | trusted token =>
    rcases advance_cases hrun with ⟨ps, hall, rfl⟩ | ⟨e, hall, rfl⟩
    · obtain ⟨hs', hps⟩ := read_ended hs (hr.all hs) hall
      obtain rfl := hps ps rfl
      refine ⟨⟨[], rfl, ?_, ?_⟩, fun ps hps => Or.inr ⟨rfl, (Option.some.inj hps).symm⟩,
        exists_gone known hs'⟩
      · exact fun g hg => absurd hg List.not_mem_nil
      · exact fun g hg => absurd hg List.not_mem_nil
    · exact .failed (read_ended hs (hr.all hs) hall).1
  | asking token ps rest found =>
    cases rest with
    | nil =>
      cases hrun
      exact .idle (honest_settle h) (fun _ => Cleaning.snapshot?_settle) hs
    | cons apps rest =>
      rcases advance_cases hrun with ⟨live, hask, rfl⟩ | ⟨e, hask, rfl⟩
      · have hanswer := hknown _ _ _ _ (askWithin_eq_ok hask)
        exact .idle (honest_answered h hanswer) (fun _ => id) (askWithin_store hask ▸ hs)
      · exact .failed (askWithin_store hask ▸ hs)
  | deleting ps gone =>
    rcases advance_cases hrun with ⟨a, hremove, rfl⟩ | ⟨e, hremove, rfl⟩
    · obtain ⟨w₁, hdelete, hstore⟩ := remove_cases hremove
      -- whatever else has been deleted since, what is taken out now is what was found stale
      have hdeleted : S.stands w₁.store (m.without gone) := delete_run hr hs hdelete
      refine ⟨h, fun _ hps => Or.inl hps, gone, fun p hp => ?_, hstore ▸ hdeleted⟩
      rw [h] at hp
      simpa using (List.mem_filter.mp hp).2
    · obtain ⟨w₁, hdelete, hstore⟩ := remove_cases hremove
      have hkept : S.stands w₁.store m := delete_run hr hs hdelete
      exact .failed (hstore ▸ hkept)

/-! ### Runs among other calls -/

/-- Runs of the cleaner that have begun since `start`, and the world they share. Between their steps the
store is called otherwise as well, and all else may change. -/
inductive Interleaved (s : Service σ κ) (start : World σ κ) : List Cleaning → World σ κ → Prop where
  | start : Interleaved s start [] start
  | begin {runs : List Cleaning} {w : World σ κ} :
      Interleaved s start runs w → Interleaved s start (.begun :: runs) w
  | turn (before : List Cleaning) {after : List Cleaning} {c c' : Cleaning} {w w' : World σ κ} :
      Interleaved s start (before ++ c :: after) w → (s.proceed c).run w = (c', w') →
      Interleaved s start (before ++ c' :: after) w'
  | call {runs : List Cleaning} {w w' : World σ κ} (r : StoreRequest) :
      Interleaved s start runs w → w'.store = (s.store.answer r w.store).2 →
      Interleaved s start runs w'
  | elsewhere {runs : List Cleaning} {w w' : World σ κ} :
      Interleaved s start runs w → w'.store = w.store → Interleaved s start runs w'

variable {runs : List Cleaning} {start : World σ κ}

theorem Interleaved.answers {bs lives : List (List String)} (hlives : s.Answers token bs w lives w')
    (h : s.Interleaved start (.asking token ps bs found :: runs) w) :
    s.Interleaved start (.asking token ps [] (found ++ lives.flatten) :: runs) w' := by
  induction hlives generalizing found with
  | nil => rwa [List.flatten_nil, List.append_nil]
  | cons hask _ ih =>
    rw [List.flatten_cons, ← List.append_assoc]
    exact ih (.turn [] h (advance_ok hask))

/-- A run may read the policies and ask for all their applications before anything else is done. -/
theorem Interleaved.survey (h : s.Interleaved start runs w) (hsurveyed : s.Surveyed w ps live w') :
    s.Interleaved start (.settle ps live :: runs) w' := by
  obtain ⟨htoken, hall, hlives⟩ := hsurveyed
  have htrusted := Interleaved.turn [] h.begin (advance_ok htoken)
  have hread := Interleaved.turn [] htrusted (advance_ok hall)
  exact .turn [] (Interleaved.answers hlives hread) rfl

theorem Interleaved.honest (h : s.Interleaved start runs w) (hr : S.Realizes s.store)
    (hs : S.stands start.store m) (hknown : s.AnswersFrom (known · = true)) :
    (∃ m', S.stands w.store m') ∧ ∀ c ∈ runs, s.Honest known c := by
  induction h with
  | start => exact ⟨⟨m, hs⟩, fun c hc => absurd hc List.not_mem_nil⟩
  | begin _ ih => exact ⟨ih.1, List.forall_mem_cons.mpr ⟨trivial, ih.2⟩⟩
  | turn before _ hrun ih =>
    obtain ⟨⟨m', hs'⟩, hruns⟩ := ih
    rw [List.forall_mem_append, List.forall_mem_cons] at hruns ⊢
    obtain ⟨hbefore, hc, hafter⟩ := hruns
    obtain ⟨honest, -, gone, -, hs''⟩ := turn_of_proceed hr hs' hknown hc hrun
    exact ⟨⟨_, hs''⟩, hbefore, honest, hafter⟩
  | call r _ hstore ih =>
    obtain ⟨⟨m', hs'⟩, hruns⟩ := ih
    obtain ⟨m'', hs'', -⟩ := hr.answer hs' r
    exact ⟨⟨m'', hstore ▸ hs''⟩, hruns⟩
  | elsewhere _ hstore ih =>
    obtain ⟨⟨m', hs'⟩, hruns⟩ := ih
    exact ⟨⟨m', hstore ▸ hs'⟩, hruns⟩

end

/-! ### What the runs leave alone -/

section

variable {κ : Type} {s : Service OpenStore κ} {c c' : Cleaning} {w w' start : World OpenStore κ}
  {known : String → Bool} {m : MemoryStore}

/-- What a step of a run may do: policies between applications that exist all stay, the list that is
checked is read once and as it is stored then, and a deletion is carried out even where some of its
policies are gone already. -/
structure Harmless (s : Service OpenStore κ) (known : String → Bool) (c c' : Cleaning)
    (w w' : World OpenStore κ) : Prop where
  listed : ∃ old new, w.store.policies = .ok old ∧ w'.store.policies = .ok new ∧ new.Sublist old ∧
    new.filter (·.isKnown known) = old.filter (·.isKnown known)
  snapshot : ∀ ps, c'.snapshot? = some ps →
    c.snapshot? = some ps ∨ c.snapshot? = none ∧ w.store.policies = .ok ps
  deleted : ∀ ps gone, c = .deleting ps gone →
    c' = .finished ps gone ∨ w.store.Fails w'.store .delete gone (some (s.timeLimit w))

theorem delete_fails (hstore : s.store = OpenStore.store)
    (hs : OpenStore.standing.stands w.store m) {gone : List Policy} {e : StoreError}
    (hdelete : (s.delete gone).run w = (.error e, w')) :
    w.store.Fails w'.store .delete gone (some (s.timeLimit w)) := by
  obtain ⟨w₁, hcall, hquiet⟩ := s.write_call .delete gone w
  obtain ⟨herror, rfl⟩ := Prod.mk.inj (hcall.symm.trans hdelete)
  rw [hstore] at herror hquiet
  exact OpenStore.fails_of_error hs (Prod.ext herror hquiet.store.symm)

theorem harmless_of_proceed (hstore : s.store = OpenStore.store)
    (hs : OpenStore.standing.stands w.store m) (hknown : s.AnswersFrom (known · = true))
    (h : s.Honest known c) (hrun : (s.proceed c).run w = (c', w')) : s.Harmless known c c' w w' := by
  have hr : OpenStore.standing.Realizes s.store := hstore ▸ OpenStore.realizes
  have hm := OpenStore.standing.valid hs
  have hpolicies := OpenStore.policies_eq hs
  obtain ⟨-, hsnapshot, gone, hgone, hs'⟩ := turn_of_proceed hr hs hknown h hrun
  refine ⟨⟨_, _, hpolicies, OpenStore.policies_eq hs', ?_, hm.known_without hgone⟩, ?_, ?_⟩
  · rw [hm.policies_without]
    exact List.filter_sublist
  · intro ps hps
    refine (hsnapshot ps hps).imp_right fun ⟨hnone, hread⟩ => ⟨hnone, ?_⟩
    rw [hpolicies, hread]
  · rintro ps gone rfl
    rcases advance_cases hrun with ⟨a, hremove, rfl⟩ | ⟨e, hremove, rfl⟩
    · exact Or.inl rfl
    · obtain ⟨w₁, hdelete, hstore₁⟩ := remove_cases hremove
      rw [hstore₁]
      exact Or.inr (delete_fails hstore hs hdelete)

/-- Among any calls, the tags are those of the policies after every step, a run that ends well gives
the policies that it has read of applications that do not exist, and no run takes away a policy between
applications that exist. -/
theorem interleaved_harmless {runs : List Cleaning} (hstore : s.store = OpenStore.store)
    (hstart : start.store.Reachable) (hknown : s.AnswersFrom (known · = true))
    (h : s.Interleaved start runs w) :
    (∃ ps tags, w.store.policies = .ok ps ∧ w.store.tags = .ok tags ∧ TagsOf ps tags) ∧
    (∀ ps gone, .finished ps gone ∈ runs → gone = ps.filter (!·.isKnown known)) ∧
    (∀ c ∈ runs, ∀ c' w', (s.proceed c).run w = (c', w') → s.Harmless known c c' w w') ∧
    ∀ w, s.Concludes .begun w (s.clean.outcome.run w) := by
  have hr : OpenStore.standing.Realizes s.store := hstore ▸ OpenStore.realizes
  obtain ⟨m, hs⟩ := hstart.stands
  obtain ⟨⟨m', hs'⟩, hruns⟩ := h.honest hr hs hknown
  refine ⟨⟨_, _, OpenStore.policies_eq hs', OpenStore.tags_eq hs',
    (OpenStore.standing.valid hs').tagsOf⟩, ?_, ?_, concludes_clean s⟩
  · exact fun ps gone hmem => hruns _ hmem
  · exact fun c hc c' w' hrun => harmless_of_proceed hstore hs' hknown (hruns c hc) hrun

end

theorem answersFrom_directoryOf {s : Service OpenStore Unit} {known : List String}
    (h : s.collaborators = directoryOf known) : s.AnswersFrom (known.contains · = true) := by
  intro token apps k found hfound g
  rw [h] at hfound
  obtain rfl : apps.filter known.contains = found := by
    cases hfound
    rfl
  rw [List.mem_filter]
  exact ⟨And.right, And.intro⟩

/-- Two runs read the same policies. The first one deletes the policy to `c`, whose group then goes to
`d`: the second one deletes it again, and the policy to `d` stays. -/
theorem interleaved_harmless_group_reused :
    let kept : Policy := ⟨⟨"a", "01"⟩, ⟨"b", "02", "tcp", ⟨80, 81⟩⟩⟩
    let gone : Policy := ⟨⟨"a", "01"⟩, ⟨"c", "03", "tcp", ⟨80, 81⟩⟩⟩
    let added : Policy := ⟨⟨"a", "01"⟩, ⟨"d", "03", "tcp", ⟨80, 81⟩⟩⟩
    let s : Service OpenStore Unit := {
      store := OpenStore.store
      collaborators := directoryOf ["a", "b", "d"]
      limits := { batchSize := 3 }
      logger := ⟨"policy-server", .info, []⟩ }
    let start : World OpenStore Unit := {
      store := (OpenStore.store.write .create [kept, gone] none (.memory (.empty .oneByte 3))).2
      collaborators := ()
      log := .discard }
    start.store.Reachable ∧ s.AnswersFrom (["a", "b", "d"].contains · = true) ∧
      ∃ w w', s.Interleaved start [.deleting [kept, gone] [gone], .finished [kept, gone] [gone]] w ∧
        w.store.policies = .ok [kept, added] ∧
        (s.proceed (.deleting [kept, gone] [gone])).run w = (.finished [kept, gone] [gone], w') ∧
        w'.store.policies = .ok [kept, added] := by
  intro kept gone added s start
  have hpair : ∀ {α β : Type} {x : α × β} {a : α}, x.1 = a → x = (a, x.2) := by
    rintro _ _ ⟨_, _⟩ _ rfl
    rfl
  have hstart : start.store.Reachable :=
    .answer (.write .create [kept, gone] none) (.memory .oneByte 3)
  have hknown : s.AnswersFrom (["a", "b", "d"].contains · = true) := answersFrom_directoryOf rfl
  let seen : List Policy := [kept, gone]
  have hbatches : batches 3 (namedApps seen) = [["a", "b", "c"]] := by
    have hnamed : namedApps seen = ["a", "b", "c"] := by decide
    rw [hnamed]
    simp [batches]
  have hsettle : Cleaning.settle seen ["a", "b"] = .deleting seen [gone] := by
    have hstale : stale ["a", "b"] seen = .ok [gone] := by decide
    rw [Cleaning.settle, hstale]
    rfl
  -- a run that begins where these policies are stored comes as far as their deletion
  have hsurvey : ∀ (runs : List Cleaning) (w : World OpenStore Unit),
      (s.all.run w).1 = .ok seen → s.Interleaved start runs w →
      s.Interleaved start (.deleting seen [gone] :: runs) (s.all.run w).2 := by
    intro runs w hall h
    have hlives : s.Answers "token" [["a", "b", "c"]] (s.all.run w).2 [["a", "b"]]
      (s.all.run w).2 := .cons rfl .nil
    exact hsettle ▸ h.survey (.mk rfl (hpair hall) (hbatches ▸ hlives))
  let w₁ := (s.all.run start).2
  have hboth : s.Interleaved start [.deleting seen [gone], .deleting seen [gone]]
      (s.all.run w₁).2 :=
    hsurvey _ w₁ (by decide +kernel) (hsurvey [] start (by decide +kernel) .start)
  let w₂ := (s.all.run w₁).2
  have hfirst : ((s.delete [gone]).run w₂).1 = .ok () := by decide +kernel
  let w₃ := ((s.logRemoved [gone]).run ((s.delete [gone]).run w₂).2).2
  have hone : s.Interleaved start [.deleting seen [gone], .finished seen [gone]] w₃ :=
    .turn [.deleting seen [gone]] hboth (advance_ok (remove_ok (hpair hfirst)))
  let creation : StoreRequest := .write .create [added] none
  have hcall : ∀ {runs : List Cleaning} {w : World OpenStore Unit}, s.Interleaved start runs w →
      s.Interleaved start runs { w with store := (s.store.answer creation w.store).2 } :=
    fun h => .call creation h rfl
  let w : World OpenStore Unit := { w₃ with store := (s.store.answer creation w₃.store).2 }
  have h : s.Interleaved start [.deleting seen [gone], .finished seen [gone]] w := hcall hone
  have hlisted : w.store.policies = .ok [kept, added] := by decide +kernel
  have hagain : ((s.delete [gone]).run w).1 = .ok () := by decide +kernel
  let w' := ((s.logRemoved [gone]).run ((s.delete [gone]).run w).2).2
  have hrun : (s.proceed (.deleting seen [gone])).run w = (.finished seen [gone], w') :=
    advance_ok (remove_ok (hpair hagain))
  obtain ⟨-, -, hharmless, -⟩ := interleaved_harmless rfl hstart hknown h
  obtain ⟨old, new, hold, hnew, hsub, hsame⟩ :=
    (hharmless _ List.mem_cons_self _ _ hrun).listed
  obtain rfl := Except.ok.inj (hlisted.symm.trans hold)
  have hall : [kept, added].filter (·.isKnown ["a", "b", "d"].contains) = [kept, added] := by decide
  have hleft : [kept, added].Sublist new := (hsame.trans hall) ▸ List.filter_sublist
  exact ⟨hstart, hknown, w, w', h, hlisted, hrun, hnew.trans (congrArg _ (hsub.antisymm hleft))⟩

end Service
end NetworkPolicy
