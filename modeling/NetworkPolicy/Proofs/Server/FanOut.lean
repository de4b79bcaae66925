import NetworkPolicy.Proofs.Access.Permission
import NetworkPolicy.Proofs.Access.Questions
import NetworkPolicy.Proofs.Server.Likeness

/-! How listings and cleanings ask for many applications: each application once, so many at a time at
most, and with the same outcome however many these are. -/
namespace NetworkPolicy

variable {σ κ α ε : Type}

/-! ### Cleanings on record -/

/-- The world before its other services are asked anything on record. -/
def World.recorded (w : World σ κ) : World σ (κ × List Asked) :=
  ⟨w.store, w.latency, (w.collaborators, []), w.log, w.samples, w.now, w.epoch⟩

/-- What is on record. -/
def World.asked (w : World σ (κ × List Asked)) : List Asked := w.collaborators.2

theorem World.asked_congr {w w' : World σ (κ × List Asked)}
    (h : w.collaborators = w'.collaborators) : w.asked = w'.asked :=
  congrArg Prod.snd h

/-- The server, with a record of what it asks. -/
def Service.recorded (s : Service σ κ) : Service σ (κ × List Asked) :=
  ⟨s.store, s.watched, s.collaborators.recorded, s.limits, s.logger, s.samples⟩

/-- The server, with so many applications looked up at a time. -/
def Service.withBatchSize (s : Service σ κ) (size : Nat) : Service σ κ :=
  { s with limits := { s.limits with batchSize := size } }

namespace Service

variable {s : Service σ κ} {w : World σ κ} {ps : List Policy}

theorem akin_refl (s : Service σ κ) : s.Akin s := ⟨rfl, rfl, rfl, rfl, rfl, rfl⟩

theorem akin_recorded (s : Service σ κ) : s.recorded.Akin s := ⟨rfl, rfl, rfl, rfl, rfl, rfl⟩

theorem alike_recorded (w : World σ κ) : w.recorded.Alike (fun k k' => k.1 = k') w :=
  ⟨rfl, rfl, rfl, rfl, rfl, rfl, rfl⟩

/-- A record changes nothing else about a cleaning. -/
theorem clean_recorded (s : Service σ κ) :
    NetworkPolicy.Alike (World.Alike fun k k' => k.1 = k') Eq s.recorded.clean.outcome.run
      s.clean.outcome.run := by
  refine clean_alike s.akin_recorded (recorded_alike s.collaborators).serviceToken ?_
  rintro token _ ps rfl
  refine (liveAmong_alike s.akin_recorded (recorded_alike s.collaborators) token _ []).mono ?_
  rintro live _ rfl g
  exact Iff.rfl

-- of a computation that goes alike whatever the other services are, their state is no part
theorem collaborators_eq {f : World σ κ → Except ε α × World σ κ}
    (h : ∀ R, NetworkPolicy.Alike (World.Alike R) Eq f f) (w : World σ κ) :
    (f w).2.collaborators = w.collaborators :=
  (h (fun k _ => k = w.collaborators) w w ⟨rfl, rfl, rfl, rfl, rfl, rfl, rfl⟩).2.collaborators

theorem askWithin_noting (q : Question) (call : κ → Reply α × κ) (timeout : Nat)
    (w : World σ (κ × List Asked)) :
    (∃ a w', (askWithin timeout (noting q call)).run w = (.ok a, w') ∧
      w'.Alike (fun k k' => k.2 = k'.2 ++ [⟨q, true⟩]) w) ∨
    ∃ e w', (askWithin timeout (noting q call)).run w = (.error e, w') ∧
      w'.asked = w.asked ++ [⟨q, false⟩] := by
  rcases hcall : call w.collaborators.1 with ⟨(e | a) | _, k⟩
  · exact Or.inr ⟨e, _, by simp only [askWithin, noting, hcall, StateT.run]; rfl, rfl⟩
  · exact Or.inl ⟨a, { w with collaborators := (k, w.asked ++ [⟨q, true⟩]) },
      by simp only [askWithin, noting, hcall, StateT.run]; rfl, rfl, rfl, rfl, rfl, rfl, rfl, rfl⟩
  · exact Or.inr ⟨_, _, by simp only [askWithin, noting, hcall, StateT.run]; rfl, rfl⟩

theorem looksUp_askWithin (q : Question) (call : κ → Reply α × κ) (timeout : Nat)
    (failure : ServiceError → ε) : LooksUp World.asked
      (Task.attempt (askWithin (σ := σ) timeout (noting q call)) failure).outcome.run
      q.apps?.toList := by
  intro w
  rw [Task.outcome_attempt]
  rcases askWithin_noting q call timeout w with ⟨a, w', hrun, hasked⟩ | ⟨e, w', hrun, hasked⟩
  · rw [hrun]
    refine ⟨[⟨q, true⟩], hasked.collaborators, fun _ => ⟨?_, a, rfl⟩⟩
    cases hq : q.apps? <;> simp [lookups, hq]
  · rw [hrun]
    exact ⟨[⟨q, false⟩], hasked, fun hall =>
      absurd (hall _ (List.mem_singleton_self _)) Bool.false_ne_true⟩

theorem looksUp_liveAmong (s : Service σ κ) (token : String) (bs : List (List String))
    (found : List String) :
    LooksUp World.asked (s.recorded.liveAmong token bs found).outcome.run bs := by
  induction bs generalizing found with
  | nil => exact fun w => ⟨[], (List.append_nil _).symm, fun _ => ⟨rfl, found, rfl⟩⟩
  | cons apps bs ih =>
    rw [liveAmong, Task.outcome_bind_eq]
    exact LooksUp.andThen rfl (looksUp_askWithin (.liveApps token apps) _ _ _) fun live =>
      ih (found ++ live)

/-- Neither a read nor a removal asks anything: a cleaning that has its token puts on record what
its lookups do. -/
theorem asked_cleanWith {w : World σ (κ × List Asked)} (token : String)
    (hps : (s.recorded.all.run w).1 = .ok ps) : ∃ more,
    ((s.recorded.cleanWith token).outcome.run w).2.asked = w.asked ++ more ∧
    ((∀ a ∈ more, a.answered = true) →
      lookups more = batches s.limits.batchSize (namedApps ps)) := by
  have hall : s.recorded.all.run w = (.ok ps, (s.recorded.all.run w).2) := Prod.fst_eq_iff.mp hps
  have hread : (s.recorded.all.run w).2.asked = w.asked :=
    World.asked_congr (collaborators_eq (fun _ => all_alike (akin_refl s.recorded)) w)
  obtain ⟨more, hmore, hlists⟩ := looksUp_liveAmong s token
    (batches s.limits.batchSize (namedApps ps)) [] (s.recorded.all.run w).2
  refine ⟨more, ?_, fun hanswered => (hlists hanswered).1⟩
  have hlimits : s.recorded.limits = s.limits := rfl
  rw [cleanWith, Task.outcome_attempt_ok hall, ← hread, ← hmore, hlimits]
  cases hlive : (s.recorded.liveAmong token (batches s.limits.batchSize (namedApps ps)) []).outcome.run
    (s.recorded.all.run w).2 with
  | mk r w' =>
    cases r with
    | error e => rw [Task.outcome_bind_error hlive]
    | ok live =>
      rw [Task.outcome_bind_ok hlive]
      exact World.asked_congr (collaborators_eq
        (fun _ => sweep_alike (akin_refl s.recorded) (fun _ => Iff.rfl) ps) w')

/-- A cleaning that reads the policies looks up all applications in them. -/
theorem lookups_clean (hps : (s.all.run w).1 = .ok ps)
    (hall : ∀ a ∈ (s.recorded.clean.outcome.run w.recorded).2.asked, a.answered = true) :
    lookups (s.recorded.clean.outcome.run w.recorded).2.asked =
      batches s.limits.batchSize (namedApps ps) := by
  rw [clean] at hall ⊢
  rcases askWithin_noting .serviceToken s.collaborators.serviceToken s.limits.cleanerMillis
    w.recorded with ⟨token, w', htoken, hasked⟩ | ⟨e, w', htoken, hasked⟩
  · have htoken : (askWithin s.recorded.limits.cleanerMillis
        s.recorded.collaborators.serviceToken).run w.recorded = (.ok token, w') := htoken
    rw [Task.outcome_attempt_ok htoken] at hall ⊢
    -- a read finds what it found before the token was there
    have hread : (s.recorded.all.run w').1 = .ok ps :=
      (all_alike (akin_refl _) w' _ hasked).1.eq.trans
        ((all_alike s.akin_recorded _ w (alike_recorded w)).1.eq.trans hps)
    obtain ⟨more, hmore, hlists⟩ := asked_cleanWith token hread
    have hnone : lookups w'.asked = [] := congrArg lookups hasked.collaborators
    rw [hmore] at hall ⊢
    rw [lookups, List.filterMap_append, ← lookups, hnone]
    exact hlists fun a ha => hall a (List.mem_append_right _ ha)
  · have htoken : (askWithin s.recorded.limits.cleanerMillis
        s.recorded.collaborators.serviceToken).run w.recorded = (.error e, w') := htoken
    rw [Task.outcome_attempt_error htoken, hasked] at hall
    exact absurd (hall _ (List.mem_append_right _ (List.mem_singleton_self _))) Bool.false_ne_true

/-! ### Directories that know their applications -/

/-- The services always answer, and say of the applications asked for which ones exist. -/
structure Informed (c : Collaborators κ) (live : String → Prop) : Prop where
  serviceToken : ∀ k, ∃ token, (c.serviceToken k).1 = .answer (.ok token)
  liveApps : ∀ token apps k, ∃ found, (c.liveApps token apps k).1 = .answer (.ok found) ∧
    ∀ g, g ∈ found ↔ g ∈ apps ∧ live g

variable {live : String → Prop}

theorem askWithin_ok {call : κ → Reply α × κ} {a : α}
    (h : (call w.collaborators).1 = .answer (.ok a)) (timeout : Nat) :
    (askWithin timeout call).run w =
      (.ok a, { w with collaborators := (call w.collaborators).2 }) := by
  rcases hcall : call w.collaborators with ⟨r, k⟩
  rw [hcall] at h
  obtain rfl : r = .answer (.ok a) := h
  simp only [askWithin, hcall, StateT.run]

theorem liveAmong_run (h : Informed s.collaborators live) (token : String)
    (bs : List (List String)) (found : List String) (w : World σ κ) :
    ∃ all k, (s.liveAmong token bs found).outcome.run w = (.ok all, { w with collaborators := k }) ∧
      ∀ g, g ∈ all ↔ g ∈ found ∨ g ∈ bs.flatten ∧ live g := by
  induction bs generalizing found w with
  | nil => exact ⟨found, w.collaborators, rfl, by simp⟩
  | cons apps bs ih =>
    obtain ⟨some, hask, hsome⟩ := h.liveApps token apps w.collaborators
    obtain ⟨all, k, hrun, hall⟩ := ih (found ++ some)
      { w with collaborators := (s.collaborators.liveApps token apps w.collaborators).2 }
    refine ⟨all, k, ?_, fun g => ?_⟩
    · rw [liveAmong, Task.outcome_attempt_ok (askWithin_ok hask _)]
      exact hrun
    · rw [hall, List.mem_append, hsome, List.flatten_cons, List.mem_append, or_and_right, or_assoc]

/-- The same applications are found alive in whatever batches they are looked up. -/
theorem clean_withBatchSize_alike (h : Informed s.collaborators live) (size size' : Nat) :
    NetworkPolicy.Alike (World.Alike fun _ _ => True) Eq
      (s.withBatchSize size).clean.outcome.run (s.withBatchSize size').clean.outcome.run := by
  have hakin : (s.withBatchSize size).Akin (s.withBatchSize size') := ⟨rfl, rfl, rfl, rfl, rfl, rfl⟩
  refine clean_alike (P := fun _ _ => True) hakin ?_ ?_
  · intro k k' _
    obtain ⟨token, htoken⟩ := h.serviceToken k
    obtain ⟨token', htoken'⟩ := h.serviceToken k'
    have hmatch : Reply.Matching (fun _ _ => True) (s.collaborators.serviceToken k).1
        (s.collaborators.serviceToken k').1 := by
      rw [htoken, htoken']
      exact .answer (.ok trivial)
    exact ⟨hmatch, trivial⟩
  · intro token token' ps _ w w' hw
    obtain ⟨all, k, hrun, hall⟩ := liveAmong_run (s := s.withBatchSize size) h token
      (batches size (namedApps ps)) [] w
    obtain ⟨all', k', hrun', hall'⟩ := liveAmong_run (s := s.withBatchSize size') h token'
      (batches size' (namedApps ps)) [] w'
    have hsame : SameMembers all all' := fun g => by
      rw [hall, hall', flatten_batches, flatten_batches]
    have hsize : (s.withBatchSize size).limits.batchSize = size := rfl
    have hsize' : (s.withBatchSize size').limits.batchSize = size' := rfl
    rw [hsize, hsize', hrun, hrun']
    exact ⟨.ok hsame, hw.store, hw.latency, trivial, hw.log, hw.samples, hw.now, hw.epoch⟩

/-! ### Listings and cleanings -/

/-- Put on record, a listing for a caller who is no administrator and a cleaning come to the same
outcome, and if everything they ask is answered, their lookups name the applications of all policies,
each once and so many at a time at most. Where the directory does not change its mind, no listing and
no cleaning depends on how many these are. -/
theorem fan_out_exact (c : Collaborators κ) (caller : Caller) (ps : List Policy) (k : κ)
    (s : Service σ κ) (w : World σ κ) :
    (caller.isAdmin = false → ∀ size,
      let seen := (visible c.recorded size caller ps).outcome (k, [])
      (seen.1, seen.2.1) = (visible c size caller ps).outcome k ∧
      ((∀ a ∈ seen.2.2, a.answered = true) → Covers size ps (lookups seen.2.2))) ∧
    (∀ read, (s.all.run w).1 = .ok read → ∀ size,
      let cleaned := (s.withBatchSize size).recorded.clean.outcome.run w.recorded
      let plain := (s.withBatchSize size).clean.outcome.run w
      cleaned.1 = plain.1 ∧ cleaned.2.Alike (fun k k' => k.1 = k') plain.2 ∧
      ((∀ a ∈ cleaned.2.asked, a.answered = true) → Covers size read (lookups cleaned.2.asked))) ∧
    (∀ space developer, Steady c space developer →
      ∃ seen, ∀ size, ((visible c size caller ps).outcome k).1 = .ok seen) ∧
    ∀ live, Informed s.collaborators live → ∃ result store, ∀ size,
      ((s.withBatchSize size).clean.outcome.run w).1 = result ∧
      ((s.withBatchSize size).clean.outcome.run w).2.store = store := by
  refine ⟨fun hcaller size => ?_, fun read hread size => ?_, fun space developer h => ?_,
    fun live h => ?_⟩
  · obtain ⟨hresult, hstate⟩ := visible_alike (recorded_alike c) size caller ps (k, []) k rfl
    refine ⟨Prod.ext hresult.eq hstate, fun hall => ?_⟩
    obtain ⟨more, hmore, hlists⟩ := looksUp_visible c hcaller size ps (k, [])
    rw [List.nil_append] at hmore
    rw [hmore] at hall ⊢
    rw [(hlists hall).1]
    exact covers_batches size ps
  · obtain ⟨hresult, hworlds⟩ := clean_recorded (s.withBatchSize size) _ w (alike_recorded w)
    refine ⟨hresult.eq, hworlds, fun hall => ?_⟩
    rw [lookups_clean (s := s.withBatchSize size) hread hall]
    exact covers_batches size read
  · refine ⟨ps.filter (caller.manages space developer), fun size => ?_⟩
    obtain ⟨_, hrun⟩ := visible_manages h size caller ps k
    exact congrArg Prod.fst hrun
  · refine ⟨((s.withBatchSize 0).clean.outcome.run w).1,
      ((s.withBatchSize 0).clean.outcome.run w).2.store, fun size => ?_⟩
    obtain ⟨hresult, hworlds⟩ :=
      clean_withBatchSize_alike h size 0 w w ⟨rfl, rfl, trivial, rfl, rfl, rfl, rfl⟩
    exact ⟨hresult.eq, hworlds.store⟩

theorem informed_registry (space : String → Option String) (own : List String) :
    Informed (registry space own) fun g => (space g).isSome = true where
  serviceToken _ := ⟨_, rfl⟩
  liveApps _ _ _ := ⟨_, rfl, fun _ => List.mem_filter⟩

/-- Three applications in two lookups, all of them answered, by a listing and by a cleaning; in
lookups of any other size they would end the same. -/
theorem fan_out_exact_three_apps :
    let space : String → Option String := fun a => [("a", "s"), ("b", "s")].lookup a
    let ps : List Policy := [⟨⟨"a", "01"⟩, ⟨"b", "02", "tcp", ⟨80, 81⟩⟩⟩,
      ⟨⟨"a", "01"⟩, ⟨"c", "03", "tcp", ⟨80, 81⟩⟩⟩]
    let s : Service OpenStore Unit := {
      store := OpenStore.store
      collaborators := registry space ["s"]
      limits := { batchSize := 2 }
      logger := ⟨"policy-server", .info, []⟩ }
    let w : World OpenStore Unit := {
      store := (OpenStore.store.write .create ps none (.memory (.empty .oneByte 3))).2
      collaborators := ()
      log := .discard }
    let seen := (visible (registry space ["s"]).recorded 2 {} ps).outcome ((), [])
    let cleaned := s.recorded.clean.outcome.run w.recorded
    lookups seen.2.2 = [["a", "b"], ["c"]] ∧ Covers 2 ps (lookups seen.2.2) ∧
      lookups cleaned.2.asked = [["a", "b"], ["c"]] ∧ Covers 2 ps (lookups cleaned.2.asked) ∧
      (∃ same, ∀ size, ((visible (registry space ["s"]) size {} ps).outcome ()).1 = .ok same) ∧
      ∃ result store, ∀ size, ((s.withBatchSize size).clean.outcome.run w).1 = result ∧
        ((s.withBatchSize size).clean.outcome.run w).2.store = store := by
  intro space ps s w seen cleaned
  have hbatches : batches 2 (namedApps ps) = [["a", "b"], ["c"]] := by
    have hnamed : namedApps ps = ["a", "b", "c"] := by decide
    rw [hnamed]
    simp [batches]
  have hread : (s.all.run w).1 = .ok ps := by decide
  have hseen : seen.2.2 = [⟨.serviceToken, true⟩, ⟨.appSpaces "token" ["a", "b"], true⟩,
      ⟨.appSpaces "token" ["c"], true⟩, ⟨.userSpaces "token" "", true⟩] := by
    change ((visible (registry space ["s"]).recorded 2 {} ps).outcome ((), [])).2.2 = _
    rw [visible, hbatches]
    rfl
  let told (asked : List Asked) : World OpenStore (Unit × List Asked) :=
    { w.recorded with collaborators := ((), asked) }
  have hread' : s.recorded.all.run (told [⟨.serviceToken, true⟩]) =
      (.ok ps, told [⟨.serviceToken, true⟩]) := rfl
  have hlives : s.recorded.Answers "token" [["a", "b"], ["c"]] (told [⟨.serviceToken, true⟩])
      [["a", "b"], []] (told [⟨.serviceToken, true⟩, ⟨.liveApps "token" ["a", "b"], true⟩,
        ⟨.liveApps "token" ["c"], true⟩]) := .cons rfl (.cons rfl .nil)
  have hsurveyed := Surveyed.mk (s := s.recorded) (w := w.recorded) rfl hread' (hbatches ▸ hlives)
  have hcleaned : cleaned.2.asked = [⟨.serviceToken, true⟩, ⟨.liveApps "token" ["a", "b"], true⟩,
      ⟨.liveApps "token" ["c"], true⟩] := by
    change (s.recorded.clean.outcome.run w.recorded).2.asked = _
    rw [clean_run hsurveyed]
    exact World.asked_congr (collaborators_eq
      (fun _ => sweep_alike (akin_refl s.recorded) (fun _ => Iff.rfl) ps) _)
  obtain ⟨hlisting, hcleaning, hsteady, hinformed⟩ :=
    fan_out_exact (registry space ["s"]) {} ps () s w
  refine ⟨by rw [hseen]; rfl, (hlisting rfl 2).2 ?_, by rw [hcleaned]; rfl,
    (hcleaning ps hread 2).2.2 ?_, hsteady _ _ (steady_registry space ["s"]),
    hinformed _ (informed_registry space ["s"])⟩
  · change ∀ a ∈ seen.2.2, a.answered = true
    rw [hseen]
    decide
  · change ∀ a ∈ cleaned.2.asked, a.answered = true
    rw [hcleaned]
    decide

end Service
end NetworkPolicy
