import NetworkPolicy.Proofs.Store.Allocation

/-! Calls that nothing hinders: a store of any kind answers them exactly as the store in memory that it
stands for says, so that two stores of one kind that stand for the same one cannot be told apart. -/
namespace NetworkPolicy

/-- The error of a write that no request was refused of: `cause` says that there is no free group. -/
def StoreError.ofKind (cause : String) (limit : Option TimeLimit) : StoreError.Kind → StoreError
  | .timeout => .timeout (limit.elim 0 (·.deadline.millis))
  | _ => .capacity cause

/-! ### Writes in a database -/

namespace Database

variable {ε α : Type} {refused : Refusal → ε} {s : Server} {x : Except ε (α × Tables)}
  {r : Except ε α × Server}

/-- Where nothing was refused, a call gives what its effect on the tables comes to. -/
theorem Session.Ending.answer_eq (h : Session.Ending refused s x r) (hq : ¬ s.RefusedSince r.2) :
    r.1 = x.map (·.1) := by
  cases h with
  | committed => rfl
  | abandoned _ _ _ hx =>
    have hfailed := hx.resolve_right fun hr => hq hr.1
    rw [hfailed]
    rfl

/-- A write fails on tables as it does in memory, in the words of its own. -/
theorem Tables.Represents.answer_eq {t : Tables} {m : MemoryStore} (h : t.Represents m)
    (hm : m.Valid) {full late : ε} {toError : ε → StoreError} {cause : String}
    {limit : Option TimeLimit} (hfull : toError full = StoreError.ofKind cause limit .capacity)
    (hlate : toError late = StoreError.ofKind cause limit .timeout) (w : Write) (ps : List Policy)
    (early up : Bool) :
    ((t.attempt full late w ps early up).map (·.1)).mapError toError =
      ((m.attempt w ps early up).map (·.1)).mapError (StoreError.ofKind cause limit) := by
  obtain ⟨hok, herror⟩ := h.write hm full w ps
  unfold Tables.attempt MemoryStore.attempt
  cases early with
  | true => exact congrArg Except.error hlate
  | false =>
    cases hw : m.written w ps with
    | error e =>
      simp only [herror e hw]
      exact congrArg Except.error hfull
    | ok m' =>
      obtain ⟨t', ht', -⟩ := hok m' hw
      simp only [ht']
      cases up with
      | true => exact congrArg Except.error hlate
      | false => rfl

end Database

/-! ### Writes in stores of each kind -/

section Kinds

variable {m : MemoryStore}

theorem MemoryStore.Valid.write_answer (hm : m.Valid) (w : Write) (ps : List Policy)
    (limit : Option TimeLimit) : (store.write w ps limit m).1 =
      ((m.attempt w ps false (limit.any TimeLimit.isUp)).map (·.1)).mapError
        (StoreError.ofKind "group pool exhausted" limit) := by
  rw [hm.write_eq]
  unfold MemoryStore.attempt
  cases hw : m.written w ps with
  | error e =>
    have hfull : e = .capacity "group pool exhausted" := by
      cases w with
      | create => exact MemoryStore.createAll_error hw
      | delete => cases hw
    exact congrArg Except.error hfull
  | ok m' =>
    rw [MemoryStore.commit_ok]
    cases limit.any TimeLimit.isUp <;> rfl

theorem SqliteStore.write_answer {s : SqliteStore} (hs : standing.stands s m) (w : Write)
    (ps : List Policy) (limit : Option TimeLimit)
    (hq : ¬ standing.refused s (store.write w ps limit s).2) : (store.write w ps limit s).1 =
      ((m.attempt w ps false (limit.any TimeLimit.isUp)).map (·.1)).mapError
        (StoreError.ofKind "no free rows in groups table" limit) := by
  have hfull : full.toStoreError =
      StoreError.ofKind "no free rows in groups table" limit .capacity := rfl
  have hlate : (late limit).toStoreError =
      StoreError.ofKind "no free rows in groups table" limit .timeout := rfl
  rw [write_eq] at hq ⊢
  rw [← hs.represents.answer_eq hs.valid hfull hlate]
  exact congrArg (Except.mapError SqliteError.toStoreError)
    ((ending_write hs w ps limit).answer_eq hq)

theorem PostgresStore.write_answer {s : PostgresStore} (hs : standing.stands s m) (w : Write)
    (ps : List Policy) (limit : Option TimeLimit)
    (hq : ¬ standing.refused s (store.write w ps limit s).2) : (store.write w ps limit s).1 =
      ((m.attempt w ps (limit.any isUpAtOpening) (limit.any TimeLimit.isUp)).map (·.1)).mapError
        (StoreError.ofKind "no free rows in groups table" limit) := by
  have hfull : full.toStoreError s.statementTimeout =
      StoreError.ofKind "no free rows in groups table" limit .capacity := rfl
  have hlate : (late limit).toStoreError s.statementTimeout =
      StoreError.ofKind "no free rows in groups table" limit .timeout := rfl
  rw [write_eq] at hq ⊢
  rw [← hs.represents.answer_eq hs.valid hfull hlate]
  exact congrArg (Except.mapError (PostgresError.toStoreError s.statementTimeout))
    ((ending_write hs w ps limit).answer_eq hq)

end Kinds

/-! ### Calls on a store of any kind -/

namespace MemoryStore

/-- The answer to a call and the state after it, when nothing is refused: `early` tells the limits whose
time is up before a batch, `cause` says that there is no free group. -/
def respond (m : MemoryStore) (cause : String) (early : TimeLimit → Bool) :
    StoreRequest → StoreAnswer StoreError × MemoryStore
  | .all => (.policies (.ok m.policies), m)
  | .byGuids sources destinations => (.policies (.ok (m.policies.filter fun p =>
      sources.contains p.source.id || destinations.contains p.destination.id)), m)
  | .tags => (.tags (.ok m.tags), m)
  | .check => (.done (.ok ()), m)
  | .write w ps limit =>
    match m.attempt w ps (limit.any early) (limit.any TimeLimit.isUp) with
    | .ok (_, m') => (.done (.ok ()), m')
    | .error k => (.done (.error (StoreError.ofKind cause limit k)), m)

end MemoryStore

namespace OpenStore

variable {o o' o'' : OpenStore} {m m' : MemoryStore} {w : Write} {ps : List Policy}
  {r : Except StoreError Unit}

/-- What the store says when it has no free group. -/
def exhausted : OpenStore → String
  | memory _ => "group pool exhausted"
  | sqlite _ => "no free rows in groups table"
  | postgres _ => "no free rows in groups table"

theorem exhausted_eq (h : standing.later o o') : o'.exhausted = o.exhausted := by
  rcases o with s | s | s <;> rcases o' with s' | s' | s' <;> first | rfl | exact h.elim

theorem early_eq (h : standing.later o o') : standing.early o' = standing.early o := by
  rcases o with s | s | s <;> rcases o' with s' | s' | s' <;> first | rfl | exact h.elim

theorem later_trans (h : standing.later o o') (h' : standing.later o' o'') :
    standing.later o o'' := by
  rcases o with s | s | s <;> rcases o' with s' | s' | s' <;> rcases o'' with s'' | s'' | s'' <;>
    first
    | exact h.elim
    | exact h'.elim
    | exact trivial
    | exact Database.Server.Precedes.trans h h'

theorem not_refused_memory {s : MemoryStore} (h : o = memory s) (o' : OpenStore) :
    ¬ standing.refused o o' := by
  subst h
  cases o' <;> exact not_false

theorem refused_mono (h : standing.refused o o') (h' : standing.later o' o'') :
    standing.refused o o'' := by
  rcases o with s | s | s <;> rcases o' with s' | s' | s' <;> rcases o'' with s'' | s'' | s'' <;>
    first
    | exact h.elim
    | exact h'.elim
    | exact Database.Server.RefusedSince.mono h h'

theorem refused_of_later (h : standing.later o o') (h' : standing.refused o' o'') :
    standing.refused o o'' := by
  rcases o with s | s | s <;> rcases o' with s' | s' | s' <;> rcases o'' with s'' | s'' | s'' <;>
    first
    | exact h.elim
    | exact h'.elim
    | exact Database.Server.Precedes.refusedSince h h'

theorem write_answer (hs : standing.stands o m) (w : Write) (ps : List Policy)
    (limit : Option TimeLimit) (hq : ¬ standing.refused o (store.write w ps limit o).2) :
    (store.write w ps limit o).1 =
      ((m.attempt w ps (limit.any (standing.early o)) (limit.any TimeLimit.isUp)).map
        (·.1)).mapError (StoreError.ofKind o.exhausted limit) := by
  rcases o with s | s | s
  · have hearly : limit.any (standing.early (memory s)) = false := by cases limit <;> rfl
    rw [hearly]
    obtain ⟨rfl, hm⟩ := hs
    cases w with
    | create => exact hm.write_answer .create ps limit
    | delete => exact hm.write_answer .delete ps limit
  · have hearly : limit.any (standing.early (sqlite s)) = false := by cases limit <;> rfl
    rw [hearly]
    cases w with
    | create => exact SqliteStore.write_answer hs .create ps limit hq
    | delete => exact SqliteStore.write_answer hs .delete ps limit hq
  · cases w with
    | create => exact PostgresStore.write_answer hs .create ps limit hq
    | delete => exact PostgresStore.write_answer hs .delete ps limit hq

/-- A call that is not refused is answered as in memory, and leaves what it leaves there. -/
theorem answer_eq (hs : standing.stands o m) (r : StoreRequest)
    (hq : ¬ standing.refused o (store.answer r o).2) :
    (store.answer r o).1 = (m.respond o.exhausted (standing.early o) r).1 ∧
      standing.stands (store.answer r o).2 (m.respond o.exhausted (standing.early o) r).2 := by
  cases r with
  | all =>
    obtain ⟨hanswer, hs'⟩ := (realizes.all hs).read hq
    exact ⟨congrArg StoreAnswer.policies hanswer, hs'⟩
  | byGuids sources destinations =>
    obtain ⟨hanswer, hs'⟩ := (realizes.byGuids hs sources destinations).read hq
    exact ⟨congrArg StoreAnswer.policies hanswer, hs'⟩
  | tags =>
    obtain ⟨hanswer, hs'⟩ := (realizes.tags hs).read hq
    exact ⟨congrArg StoreAnswer.tags hanswer, hs'⟩
  | check =>
    obtain ⟨hanswer, hs'⟩ := (realizes.check hs).read hq
    exact ⟨congrArg StoreAnswer.done hanswer, hs'⟩
  | write w ps limit =>
    have hq' : ¬ standing.refused o (store.write w ps limit o).2 := hq
    have hended := realizes.write hs w ps limit
    have hanswer := write_answer hs w ps limit hq'
    change StoreAnswer.done (store.write w ps limit o).1 = _ ∧
      standing.stands (store.write w ps limit o).2 _
    rw [hanswer]
    unfold MemoryStore.respond
    generalize store.write w ps limit o = x at hended hq'
    cases hended with
    | done hideal _ _ hs' =>
      simp only [hideal]
      exact ⟨rfl, hs'⟩
    | failed hideal _ hs' =>
      simp only [hideal]
      exact ⟨rfl, hs'⟩
    | refused hr => exact absurd hr hq'

theorem later_answer (hs : standing.stands o m) (r : StoreRequest) :
    standing.later o (store.answer r o).2 := by
  cases r with
  | all => exact (realizes.all hs).later
  | byGuids sources destinations => exact (realizes.byGuids hs sources destinations).later
  | tags => exact (realizes.tags hs).later
  | check => exact (realizes.check hs).later
  | write w ps limit => exact (realizes.write hs w ps limit).later

theorem later_answers (hs : standing.stands o m) (rs : List StoreRequest) :
    standing.later o (store.answers rs o).2 := by
  induction rs generalizing o m with
  | nil =>
    rcases o with s | s | s
    · exact trivial
    · exact Database.Server.Precedes.refl s.server
    · exact Database.Server.Precedes.refl s.server
  | cons r rs ih =>
    obtain ⟨m', hs', -⟩ := realizes.answer hs r
    exact later_trans (later_answer hs r) (ih hs')

/-- Stores of one kind that stand for the same store in memory answer all calls alike, for as long as
nothing is refused. -/
theorem answers_eq (hs : standing.stands o m) (hs' : standing.stands o' m)
    (hexhausted : o'.exhausted = o.exhausted) (hearly : standing.early o' = standing.early o)
    (rs : List StoreRequest) (hq : ¬ standing.refused o (store.answers rs o).2)
    (hq' : ¬ standing.refused o' (store.answers rs o').2) :
    (store.answers rs o').1 = (store.answers rs o).1 := by
  -- after each call both stores stand for one store in memory again, which need not be `m`
  induction rs generalizing o o' m with
  | nil => rfl
  | cons r rs ih =>
    have hl := later_answer hs r
    have hl' := later_answer hs' r
    obtain ⟨u, hu, -⟩ := realizes.answer hs r
    obtain ⟨u', hu', -⟩ := realizes.answer hs' r
    have hrest := later_answers hu rs
    have hrest' := later_answers hu' rs
    obtain ⟨hanswer, hnext⟩ := answer_eq hs r fun h => hq (refused_mono h hrest)
    obtain ⟨hanswer', hnext'⟩ := answer_eq hs' r fun h => hq' (refused_mono h hrest')
    rw [hexhausted, hearly] at hanswer' hnext'
    have hfirst : (store.answer r o').1 = (store.answer r o).1 := hanswer'.trans hanswer.symm
    have hexhausted' := (exhausted_eq hl').trans (hexhausted.trans (exhausted_eq hl).symm)
    have hearly' := (early_eq hl').trans (hearly.trans (early_eq hl).symm)
    exact List.cons_eq_cons.mpr ⟨hfirst, ih hnext hnext' hexhausted' hearly'
      (fun h => hq (refused_of_later hl h)) fun h => hq' (refused_of_later hl' h)⟩

/-! ### Undisturbed writes -/

/-- A write, under some limit, that left `o'` and that nothing hindered. -/
def Wrote (o : OpenStore) (w : Write) (ps : List Policy) (r : Except StoreError Unit)
    (o' : OpenStore) : Prop :=
  ∃ limit, store.write w ps limit o = (r, o') ∧ o.Undisturbed o' limit

theorem Wrote.ended (h : o.Wrote w ps r o') (hs : standing.stands o m) :
    standing.Ended o m (m.attempt w ps false false) (r, o') := by
  obtain ⟨limit, hcall, hu⟩ := h
  have hended := hcall ▸ realizes.write hs w ps limit
  rwa [hu.early, hu.late] at hended

theorem Wrote.later (h : o.Wrote w ps r o') (hs : standing.stands o m) : standing.later o o' :=
  (h.ended hs).later

theorem Wrote.accepted (h : o.Wrote w ps r o') : ¬ standing.refused o o' := by
  obtain ⟨limit, -, hu⟩ := h
  exact hu.accepted

/-- The batch is carried out if there are groups for it. -/
theorem Wrote.done (h : o.Wrote w ps r o') (hs : standing.stands o m)
    (hw : m.written w ps = .ok m') : r = .ok () ∧ standing.stands o' m' := by
  have hended := h.ended hs
  have hideal : m.attempt w ps false false = .ok ((), m') :=
    MemoryStore.attempt_eq_ok.mpr ⟨rfl, rfl, hw⟩
  rw [hideal] at hended
  cases hended with
  | done heq _ _ hs' =>
    cases heq
    exact ⟨rfl, hs'⟩
  | failed heq => cases heq
  | refused hr => exact absurd hr h.accepted

/-- The write fails, in words that depend on the kind of store only, if there are none. -/
theorem Wrote.full (h : o.Wrote w ps r o') (hs : standing.stands o m) {e : StoreError}
    (hw : m.written w ps = .error e) :
    r = .error (.capacity o.exhausted) ∧ standing.stands o' m := by
  have hended := h.ended hs
  have hq := h.accepted
  obtain ⟨limit, hcall, hu⟩ := h
  have hideal : m.attempt w ps false false = .error .capacity := MemoryStore.attempt_of_error hw
  have hanswer := write_answer hs w ps limit (hcall ▸ hq)
  rw [hcall, hu.early, hu.late, hideal] at hanswer
  rw [hideal] at hended
  refine ⟨hanswer, ?_⟩
  cases hended with
  | done heq => cases heq
  | failed _ _ hs' => exact hs'
  | refused hr => exact absurd hr hq

theorem written_of_ok (hs : standing.stands o m) {limit : Option TimeLimit}
    (h : store.write w ps limit o = (.ok (), o')) :
    ∃ m', m.written w ps = .ok m' ∧ standing.stands o' m' ∧ standing.later o o' := by
  have hended := h ▸ realizes.write hs w ps limit
  cases hended with
  | done hideal hl _ hs' =>
    obtain ⟨-, -, hw⟩ := MemoryStore.attempt_eq_ok.mp hideal
    exact ⟨_, hw, hs', hl⟩

/-! ### Listings -/

/-- The stores list the same policies, with the same tags, in the same order. -/
def ListsAs (o o' : OpenStore) : Prop := o.policies = o'.policies ∧ o.tags = o'.tags

theorem listsAs (hs : standing.stands o m) (hs' : standing.stands o' m) : o.ListsAs o' :=
  ⟨(policies_eq hs).trans (policies_eq hs').symm, (tags_eq hs).trans (tags_eq hs').symm⟩

end OpenStore
end NetworkPolicy
