import NetworkPolicy.Proofs.Server.Steps
import NetworkPolicy.Proofs.Store.Capacity
import NetworkPolicy.Proofs.Store.Opened
import NetworkPolicy.Server.Cleaner

/-! The cleaner removes just the policies of applications that the directory does not know. When it
cannot tell, it removes nothing. -/
namespace NetworkPolicy

namespace Service

variable {σ κ : Type} (s : Service σ κ)

/-! ### What the directory says -/

/-- The directory's answers on batches of applications that are asked for one after the other, and the
world after them. -/
inductive Answers (token : String) :
    List (List String) → World σ κ → List (List String) → World σ κ → Prop where
  | nil {w : World σ κ} : Answers token [] w [] w
  | cons {apps live : List String} {rest lives : List (List String)} {w w₁ w₂ : World σ κ} :
      (askWithin s.limits.cleanerMillis (s.collaborators.liveApps token apps)).run w =
        (.ok live, w₁) →
      Answers token rest w₁ lives w₂ → Answers token (apps :: rest) w (live :: lives) w₂

/-- The cleaner got a token, read these policies, and the directory answered on all batches of their
applications that these are live. -/
inductive Surveyed (w : World σ κ) : List Policy → List String → World σ κ → Prop where
  | mk {token : String} {ps : List Policy} {lives : List (List String)} {w₁ w₂ w₃ : World σ κ} :
      (askWithin s.limits.cleanerMillis s.collaborators.serviceToken).run w = (.ok token, w₁) →
      s.all.run w₁ = (.ok ps, w₂) →
      s.Answers token (batches s.limits.batchSize (namedApps ps)) w₂ lives w₃ →
      Surveyed w ps lives.flatten w₃

/-- The points at which a cleaning fails, and the failure there. -/
inductive CleaningFails (w : World σ κ) : CleanError → Prop where
  | token {e : ServiceError} {w₁ : World σ κ} :
      (askWithin s.limits.cleanerMillis s.collaborators.serviceToken).run w = (.error e, w₁) →
      CleaningFails w (.service e)
  | read {token : String} {e : StoreError} {w₁ w₂ : World σ κ} :
      (askWithin s.limits.cleanerMillis s.collaborators.serviceToken).run w = (.ok token, w₁) →
      s.all.run w₁ = (.error e, w₂) → CleaningFails w (.store e)
  /-- The directory answered on some batches, but not on the next one. -/
  | lookup {token : String} {ps : List Policy} {asked rest lives : List (List String)}
      {apps : List String} {e : ServiceError} {w₁ w₂ w₃ w₄ : World σ κ} :
      (askWithin s.limits.cleanerMillis s.collaborators.serviceToken).run w = (.ok token, w₁) →
      s.all.run w₁ = (.ok ps, w₂) →
      batches s.limits.batchSize (namedApps ps) = asked ++ apps :: rest →
      s.Answers token asked w₂ lives w₃ →
      (askWithin s.limits.cleanerMillis (s.collaborators.liveApps token apps)).run w₃ =
        (.error e, w₄) →
      CleaningFails w (.service e)
  /-- There are policies, and all answers together are empty. -/
  | nobody {ps : List Policy} {w₁ : World σ κ} : s.Surveyed w ps [] w₁ → ps ≠ [] →
      CleaningFails w (.service (.invalidResponse "directory returned no applications"))
  | delete {ps : List Policy} {live : List String} {e : StoreError} {w₁ w₂ : World σ κ} :
      s.Surveyed w ps live w₁ → live ≠ [] → ps.filter (!·.isLive live) ≠ [] →
      (s.delete (ps.filter (!·.isLive live))).run w₁ = (.error e, w₂) → CleaningFails w (.store e)

variable {s} {token : String} {apps : List String} {bs lives : List (List String)}
  {live found : List String} {ps gone : List Policy} {w w' w₁ : World σ κ}

theorem Answers.store_eq (h : s.Answers token bs w lives w') : w'.store = w.store := by
  induction h with
  | nil => rfl
  | cons hask _ ih => exact ih.trans (askWithin_store hask)

/-- Once the directory has answered on some batches, the lookup goes on with the others. -/
theorem Answers.liveAmong_append (h : s.Answers token bs w lives w') (rest : List (List String))
    (found : List String) : (s.liveAmong token (bs ++ rest) found).outcome.run w =
      (s.liveAmong token rest (found ++ lives.flatten)).outcome.run w' := by
  induction h generalizing found with
  | nil => rw [List.flatten_nil, List.append_nil, List.nil_append]
  | @cons apps live _ lives _ _ _ hask _ ih =>
    rw [List.cons_append, liveAmong, Task.outcome_attempt_ok hask, List.flatten_cons,
      ← List.append_assoc]
    exact ih (found ++ live)

/-- The directory answers on all batches, or there is a first one on which it does not. -/
theorem exists_answers (token : String) (bs : List (List String)) (w : World σ κ) :
    (∃ lives w', s.Answers token bs w lives w') ∨
    ∃ asked apps rest lives w₁ e w', bs = asked ++ apps :: rest ∧ s.Answers token asked w lives w₁ ∧
      (askWithin s.limits.cleanerMillis (s.collaborators.liveApps token apps)).run w₁ =
        (.error e, w') := by
  induction bs generalizing w with
  | nil => exact Or.inl ⟨[], w, .nil⟩
  | cons apps rest ih =>
    cases hask : (askWithin s.limits.cleanerMillis (s.collaborators.liveApps token apps)).run w with
    | mk r w₁ =>
      cases r with
      | error e => exact Or.inr ⟨[], apps, rest, [], w, e, w₁, rfl, .nil, hask⟩
      | ok live =>
        rcases ih w₁ with ⟨lives, w', hlives⟩ |
          ⟨asked, apps', rest', lives, w₂, e, w', rfl, hlives, hask'⟩
        · exact Or.inl ⟨live :: lives, w', .cons hask hlives⟩
        · exact Or.inr ⟨apps :: asked, apps', rest', live :: lives, w₂, e, w', rfl,
            .cons hask hlives, hask'⟩

theorem exists_surveyed (s : Service σ κ) (w : World σ κ) :
    (∃ ps live w', s.Surveyed w ps live w') ∨ ∃ e, s.CleaningFails w e := by
  cases htoken : (askWithin s.limits.cleanerMillis s.collaborators.serviceToken).run w with
  | mk r w₁ =>
    cases r with
    | error e => exact Or.inr ⟨_, .token htoken⟩
    | ok token =>
      cases hall : s.all.run w₁ with
      | mk r w₂ =>
        cases r with
        | error e => exact Or.inr ⟨_, .read htoken hall⟩
        | ok ps =>
          rcases s.exists_answers token (batches s.limits.batchSize (namedApps ps)) w₂ with
            ⟨lives, w', hlives⟩ | ⟨asked, apps, rest, lives, w₃, e, w', hbs, hlives, hask⟩
          · exact Or.inl ⟨ps, _, w', .mk htoken hall hlives⟩
          · exact Or.inr ⟨_, .lookup htoken hall hbs hlives hask⟩

/-! ### What the cleaner makes of it -/

theorem remove_error {e : StoreError} (h : (s.delete gone).run w = (.error e, w₁)) :
    (s.remove gone).run w = (.error e, w₁) := by
  rw [remove, StateT.run_bind, h]
  rfl

theorem remove_ok {a : Unit} (h : (s.delete gone).run w = (.ok a, w₁)) :
    (s.remove gone).run w = (.ok (), ((s.logRemoved gone).run w₁).2) := by
  rw [remove, StateT.run_bind, h]
  rfl

theorem clean_run (h : s.Surveyed w ps live w₁) :
    s.clean.outcome.run w = (s.sweep ps live).outcome.run w₁ := by
  obtain ⟨htoken, hall, hlives⟩ := h
  have hlive := hlives.liveAmong_append [] []
  rw [List.append_nil] at hlive
  rw [clean, Task.outcome_attempt_ok htoken, cleanWith, Task.outcome_attempt_ok hall,
    Task.outcome_bind, hlive]
  rfl

theorem sweep_nobody (hps : ps ≠ []) : (s.sweep ps []).outcome.run w =
    (.error (.service (.invalidResponse "directory returned no applications")), w) := by
  cases ps with
  | nil => exact absurd rfl hps
  | cons p ps => rfl

theorem stale_eq_ok (h : live ≠ [] ∨ ps = []) : stale live ps = .ok (ps.filter (!·.isLive live)) := by
  refine if_neg fun hempty => ?_
  obtain ⟨hlive, hps⟩ := Bool.and_eq_true_iff.mp hempty
  rcases h with h | rfl
  · exact h (List.isEmpty_iff.mp hlive)
  · cases hps

theorem sweep_nothing (h : live ≠ [] ∨ ps = []) (hgone : ps.filter (!·.isLive live) = []) :
    (s.sweep ps live).outcome.run w = (.ok [], w) := by
  have hstale : (pure (stale live ps) : Effect σ κ _).run w = (.ok [], w) := by
    rw [stale_eq_ok h, hgone]
    rfl
  rw [sweep, Task.outcome_attempt_ok hstale]
  rfl

/-- Where there are stale policies, the cleaner deletes them, and fails if that fails. -/
theorem sweep_delete (h : live ≠ []) (hgone : ps.filter (!·.isLive live) ≠ [])
    {r : Except StoreError Unit}
    (hdelete : (s.delete (ps.filter (!·.isLive live))).run w = (r, w')) :
    match r with
    | .error e => (s.sweep ps live).outcome.run w = (.error (.store e), w')
    | .ok () => ∃ w₂, (s.sweep ps live).outcome.run w = (.ok (ps.filter (!·.isLive live)), w₂) ∧
      w₂.store = w'.store := by
  have hstale : (pure (stale live ps) : Effect σ κ _).run w =
      (.ok (ps.filter (!·.isLive live)), w) := by
    rw [stale_eq_ok (Or.inl h)]
    rfl
  have hsome : ¬ (ps.filter (!·.isLive live)).isEmpty = true := mt List.isEmpty_iff.mp hgone
  rw [sweep, Task.outcome_attempt_ok hstale, if_neg hsome]
  cases r with
  | error e => exact Task.outcome_attempt_error (remove_error hdelete) _ _
  | ok _ => exact ⟨_, Task.outcome_attempt_ok (remove_ok hdelete) _ _, rfl⟩

/-! ### What becomes of the store -/

variable {S : Standing σ} {m : MemoryStore}

theorem Surveyed.stands (h : s.Surveyed w ps live w₁) (hr : S.Realizes s.store)
    (hs : S.stands w.store m) : S.stands w₁.store m ∧ ps = m.policies := by
  obtain ⟨htoken, hall, hlives⟩ := h
  have hs₁ := askWithin_store htoken ▸ hs
  obtain ⟨hs', hps⟩ := read_ended hs₁ (hr.all hs₁) hall
  exact ⟨hlives.store_eq ▸ hs', hps _ rfl⟩

/-- At each point of failure the cleaning fails as it says there, and nothing is removed. -/
theorem CleaningFails.run {e : CleanError} (h : s.CleaningFails w e) (hr : S.Realizes s.store)
    (hs : S.stands w.store m) :
    ∃ w', s.clean.outcome.run w = (.error e, w') ∧ S.stands w'.store m := by
  cases h with
  | token htoken =>
    exact ⟨_, Task.outcome_attempt_error htoken _ _, askWithin_store htoken ▸ hs⟩
  | read htoken hall =>
    have hs₁ := askWithin_store htoken ▸ hs
    rw [clean, Task.outcome_attempt_ok htoken, cleanWith]
    exact ⟨_, Task.outcome_attempt_error hall _ _, (read_ended hs₁ (hr.all hs₁) hall).1⟩
  | lookup htoken hall hbs hlives hask =>
    have hs₁ := askWithin_store htoken ▸ hs
    have hs₂ := (read_ended hs₁ (hr.all hs₁) hall).1
    rw [clean, Task.outcome_attempt_ok htoken, cleanWith, Task.outcome_attempt_ok hall, hbs,
      Task.outcome_bind, hlives.liveAmong_append, liveAmong, Task.outcome_attempt_error hask]
    exact ⟨_, rfl, askWithin_store hask ▸ hlives.store_eq ▸ hs₂⟩
  | nobody h hps => exact ⟨_, (clean_run h).trans (sweep_nobody hps), (h.stands hr hs).1⟩
  | delete h hlive hgone hdelete =>
    exact ⟨_, (clean_run h).trans (sweep_delete hlive hgone hdelete),
      delete_run hr (h.stands hr hs).1 hdelete⟩

/-- Where the cleaning does not fail, the stale policies are removed. -/
theorem Surveyed.run (h : s.Surveyed w ps live w₁) (hno : ∀ e, ¬ s.CleaningFails w e)
    (hr : S.Realizes s.store) (hs : S.stands w.store m) :
    ∃ w', s.clean.outcome.run w = (.ok (ps.filter (!·.isLive live)), w') ∧
      S.stands w'.store (m.without (ps.filter (!·.isLive live))) := by
  have hs₁ := (h.stands hr hs).1
  have hlive : live ≠ [] ∨ ps = [] := by
    by_contra hnot
    obtain ⟨hlive, hps⟩ := not_or.mp hnot
    rw [ne_eq, not_not] at hlive
    exact hno _ (.nobody (hlive ▸ h) hps)
  rw [clean_run h]
  by_cases hgone : ps.filter (!·.isLive live) = []
  · refine ⟨w₁, (sweep_nothing hlive hgone).trans (by rw [hgone]), ?_⟩
    rw [hgone, (S.valid hs).without_nil]
    exact hs₁
  · have hlive : live ≠ [] := hlive.resolve_right fun hps => hgone (by rw [hps, List.filter_nil])
    cases hdelete : (s.delete (ps.filter (!·.isLive live))).run w₁ with
    | mk r w₂ =>
      have hstands := delete_run hr hs₁ hdelete
      have hswept := sweep_delete hlive hgone hdelete
      cases r with
      | error e => exact absurd (.delete h hlive hgone hdelete) (hno _)
      | ok _ =>
        obtain ⟨w', hrun, hstore⟩ := hswept
        exact ⟨w', hrun, hstore ▸ hstands⟩

/-! ### Cleaning again -/

/-- What the directory answers is which of the applications asked for are in a fixed set. -/
def AnswersFrom (s : Service σ κ) (known : String → Prop) : Prop :=
  ∀ token apps k found, (s.collaborators.liveApps token apps k).1 = .answer (.ok found) →
    ∀ g, (g ∈ found → known g) ∧ (g ∈ apps → known g → g ∈ found)

variable {known : String → Prop}

theorem Answers.mem_flatten (h : s.Answers token bs w lives w') (hknown : s.AnswersFrom known)
    (g : String) :
    (g ∈ lives.flatten → known g) ∧ (g ∈ bs.flatten → known g → g ∈ lives.flatten) := by
  induction h with
  | nil => exact ⟨fun hg => absurd hg List.not_mem_nil, fun hg => absurd hg List.not_mem_nil⟩
  | cons hask _ ih =>
    obtain ⟨hsound, hcomplete⟩ := hknown _ _ _ _ (askWithin_eq_ok hask) g
    simp only [List.flatten_cons, List.mem_append]
    constructor
    · rintro (hg | hg)
      · exact hsound hg
      · exact ih.1 hg
    · rintro (hg | hg) hk
      · exact Or.inl (hcomplete hg hk)
      · exact Or.inr (ih.2 hg hk)

theorem Surveyed.mem_live (h : s.Surveyed w ps live w₁) (hknown : s.AnswersFrom known) (g : String) :
    (g ∈ live → known g) ∧ ((∃ p ∈ ps, g ∈ p.ends) → known g → g ∈ live) := by
  obtain ⟨-, -, hlives⟩ := h
  rw [← mem_namedApps, ← flatten_batches s.limits.batchSize (namedApps ps)]
  exact hlives.mem_flatten hknown g

theorem isLive_iff {p : Policy} : p.isLive live = true ↔ ∀ g ∈ p.ends, g ∈ live := by
  simp [Policy.isLive, Policy.ends]

/-- Nothing is removed where all applications of the policies are known. -/
theorem Surveyed.run_nothing (h : s.Surveyed w ps live w₁) (hknown : s.AnswersFrom known)
    (hps : ∀ p ∈ ps, ∀ g ∈ p.ends, known g) : s.clean.outcome.run w = (.ok [], w₁) := by
  have hlive : ∀ p ∈ ps, ∀ g ∈ p.ends, g ∈ live := fun p hp g hg =>
    (h.mem_live hknown g).2 ⟨p, hp, hg⟩ (hps p hp g hg)
  rw [clean_run h]
  refine sweep_nothing ?_ ?_
  · cases ps with
    | nil => exact Or.inr rfl
    | cons p ps =>
      have hsource := hlive p List.mem_cons_self p.source.id List.mem_cons_self
      exact Or.inl (List.ne_nil_of_mem hsource)
  · refine List.filter_eq_nil_iff.mpr fun p hp => ?_
    rw [isLive_iff.mpr (hlive p hp)]
    exact Bool.false_ne_true

end Service

namespace OpenStore

/-- What another state has kept of a state: what is listed, and the stores in memory that it stands
for. -/
structure Kept (o o' : OpenStore) : Prop where
  policies : o'.policies = o.policies
  tags : o'.tags = o.tags
  stands : ∀ m, standing.stands o m → standing.stands o' m

theorem kept {o o' : OpenStore} {m : MemoryStore} (hm : standing.stands o m)
    (h : ∀ m, standing.stands o m → standing.stands o' m) : o.Kept o' where
  policies := (policies_eq (h m hm)).trans (policies_eq hm).symm
  tags := (tags_eq (h m hm)).trans (tags_eq hm).symm
  stands := h

end OpenStore

namespace Service

variable {κ : Type} {s : Service OpenStore κ} {w : World OpenStore κ}

/-- In every reachable state a cleaning fails exactly at one of the points of failure, and then the
store is as it was; else it removes just the policies with an application that the directory did not
answer with. If the directory answers from a fixed set, there is nothing left to remove. -/
theorem clean_exact (hstore : s.store = OpenStore.store) (hw : w.store.Reachable) :
    ∃ old tags, w.store.policies = .ok old ∧ w.store.tags = .ok tags ∧
      match s.clean.outcome.run w with
      | (.error e, w') => s.CleaningFails w e ∧ w.store.Kept w'.store
      | (.ok gone, w') => (∀ e, ¬ s.CleaningFails w e) ∧ ∃ live w₁, s.Surveyed w old live w₁ ∧
        gone = old.filter (!·.isLive live) ∧
        w'.store.policies = .ok (old.filter (·.isLive live)) ∧
        w'.store.tags = .ok (tags.filter fun t =>
          (old.filter (·.isLive live)).any (·.ends.contains t.id)) ∧
        ∀ known, s.AnswersFrom known → ∀ w₂ ps live₂ w₃, w₂.store = w'.store →
          s.Surveyed w₂ ps live₂ w₃ →
          s.clean.outcome.run w₂ = (.ok [], w₃) ∧ w'.store.Kept w₃.store := by
  have hr : OpenStore.standing.Realizes s.store := hstore ▸ OpenStore.realizes
  obtain ⟨m, hs⟩ := hw.stands
  have hm := OpenStore.standing.valid hs
  refine ⟨m.policies, m.tags, OpenStore.policies_eq hs, OpenStore.tags_eq hs, ?_⟩
  by_cases hfails : ∃ e, s.CleaningFails w e
  · obtain ⟨e, he⟩ := hfails
    obtain ⟨w', hrun, -⟩ := he.run hr hs
    rw [hrun]
    -- the run is the same for each store in memory that the state stands for
    refine ⟨he, OpenStore.kept hs fun m' hs' => ?_⟩
    obtain ⟨w'', hrun', hs''⟩ := he.run hr hs'
    cases hrun.symm.trans hrun'
    exact hs''
  · have hno : ∀ e, ¬ s.CleaningFails w e := not_exists.mp hfails
    obtain ⟨ps, live, w₁, h⟩ := (exists_surveyed s w).resolve_right hfails
    obtain ⟨-, rfl⟩ := h.stands hr hs
    obtain ⟨w', hrun, hs'⟩ := h.run hno hr hs
    have hleft : (m.without (m.policies.filter (!·.isLive live))).policies =
        m.policies.filter (·.isLive live) := by
      simpa only [Bool.not_not] using hm.policies_without_filter (!·.isLive live)
    rw [hrun]
    refine ⟨hno, live, w₁, h, rfl, ?_, ?_, ?_⟩
    · rw [OpenStore.policies_eq hs', hleft]
    · rw [OpenStore.tags_eq hs', hm.tags_without, hleft]
    · intro known hknown w₂ ps live₂ w₃ hw₂ h₂
      obtain ⟨-, rfl⟩ := h₂.stands hr (hw₂ ▸ hs')
      refine ⟨h₂.run_nothing hknown fun p hp g hg => ?_, OpenStore.kept hs' fun m' hm' => ?_⟩
      · rw [hleft] at hp
        exact (h.mem_live hknown g).1 (isLive_iff.mp (List.mem_filter.mp hp).2 g hg)
      · exact (h₂.stands hr (hw₂ ▸ hm')).1

/-- A directory that knows some applications, and gives away tokens. -/
def directoryOf (known : List String) : Collaborators Unit where
  checkToken _ k := (.silence, k)
  serviceToken k := (.answer (.ok "token"), k)
  appSpaces _ _ k := (.silence, k)
  userSpaces _ _ k := (.silence, k)
  liveApps _ apps k := (.answer (.ok (apps.filter known.contains)), k)

/-- Of three applications in two lookups, the second one finds none: just the policy that names the
third application is removed. -/
theorem clean_exact_two_lookups :
    let kept : Policy := ⟨⟨"a", "01"⟩, ⟨"b", "02", "tcp", ⟨80, 81⟩⟩⟩
    let gone : Policy := ⟨⟨"a", "01"⟩, ⟨"c", "03", "tcp", ⟨80, 81⟩⟩⟩
    let s : Service OpenStore Unit := {
      store := OpenStore.store
      collaborators := directoryOf ["a", "b"]
      limits := { batchSize := 2 }
      logger := ⟨"policy-server", .info, []⟩ }
    let w : World OpenStore Unit := {
      store := (OpenStore.store.write .create [kept, gone] none (.memory (.empty .oneByte 3))).2
      collaborators := ()
      log := .discard }
    w.store.Reachable ∧ ∃ w', s.clean.outcome.run w = (.ok [gone], w') ∧
      w'.store.policies = .ok [kept] ∧ w'.store.tags = .ok [⟨"a", "01"⟩, ⟨"b", "02"⟩] := by
  intro kept gone s w
  have hw : w.store.Reachable := .answer (.write .create [kept, gone] none) (.memory .oneByte 3)
  have hbatches : batches 2 (namedApps [kept, gone]) = [["a", "b"], ["c"]] := by
    have hnamed : namedApps [kept, gone] = ["a", "b", "c"] := by decide
    rw [hnamed]
    simp [batches]
  have hpair : ∀ {α β : Type} {x : α × β} {a : α}, x.1 = a → x = (a, x.2) := by
    rintro _ _ ⟨_, _⟩ _ rfl
    rfl
  have hall : (s.all.run w).1 = .ok [kept, gone] := by decide
  have hlives : s.Answers "token" [["a", "b"], ["c"]] (s.all.run w).2 [["a", "b"], []]
    (s.all.run w).2 := .cons rfl (.cons rfl .nil)
  have hsurveyed : s.Surveyed w [kept, gone] ["a", "b"] (s.all.run w).2 :=
    .mk rfl (hpair hall) (hbatches ▸ hlives)
  have hstale : [kept, gone].filter (!·.isLive ["a", "b"]) = [gone] := by decide
  have hdelete : ((s.delete ([kept, gone].filter (!·.isLive ["a", "b"]))).run
    (s.all.run w).2).1 = .ok () := by decide +kernel
  have hsome : [kept, gone].filter (!·.isLive ["a", "b"]) ≠ [] := hstale ▸ List.cons_ne_nil _ _
  obtain ⟨w', hrun, -⟩ := sweep_delete (List.cons_ne_nil _ _) hsome (hpair hdelete)
  rw [← clean_run hsurveyed, hstale] at hrun
  obtain ⟨old, tags, hold, htags, h⟩ := clean_exact (s := s) rfl hw
  rw [hrun] at h
  obtain ⟨-, live, -, -, hgone, hpolicies, htags', -⟩ := h
  have hlisted : w.store.policies = .ok [kept, gone] := by decide
  have hassigned : w.store.tags = .ok [⟨"a", "01"⟩, ⟨"b", "02"⟩, ⟨"c", "03"⟩] := by decide
  obtain rfl := Except.ok.inj (hlisted.symm.trans hold)
  obtain rfl := Except.ok.inj (hassigned.symm.trans htags)
  have hkept : kept.isLive live = true := by
    by_contra hnot
    have hmem : kept ∈ [gone] :=
      hgone ▸ List.mem_filter.mpr ⟨List.mem_cons_self, by simpa using hnot⟩
    exact absurd hmem (by decide)
  have hdead : gone.isLive live = false := by
    have hmem : gone ∈ [kept, gone].filter (!·.isLive live) := hgone ▸ List.mem_singleton_self gone
    simpa using (List.mem_filter.mp hmem).2
  have hleft : [kept, gone].filter (·.isLive live) = [kept] := by
    rw [List.filter_cons_of_pos hkept, List.filter_cons_of_neg (by simp [hdead]), List.filter_nil]
  exact ⟨hw, w', hrun, hpolicies.trans (congrArg _ hleft), (hleft ▸ htags').trans rfl⟩

end Service
end NetworkPolicy
