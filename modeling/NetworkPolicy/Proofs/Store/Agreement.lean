import NetworkPolicy.Proofs.Store.Postgres
import NetworkPolicy.Proofs.Store.Sqlite

/-! Two kinds of store that stand for the same store in memory give the same answers, as long as no
request is refused. -/
namespace NetworkPolicy

/-- The same calls, under limits that are both up or both not when the batch is to be committed. -/
inductive StoreRequest.Alike : StoreRequest → StoreRequest → Prop where
  | all : Alike .all .all
  | write {w : Write} {ps : List Policy} {limit limit' : Option TimeLimit} :
      limit.any TimeLimit.isUp = limit'.any TimeLimit.isUp →
      Alike (.write w ps limit) (.write w ps limit')
  | byGuids {sources destinations : List String} :
      Alike (.byGuids sources destinations) (.byGuids sources destinations)
  | tags : Alike .tags .tags
  | check : Alike .check .check

/-- The limit of a write. -/
def StoreRequest.limit? : StoreRequest → Option TimeLimit
  | .write _ _ limit => limit
  | _ => none

deriving instance DecidableEq for StoreAnswer

/-- The answers with their failures told by kind. -/
def PolicyStore.verdicts {σ : Type} (store : PolicyStore σ) (rs : List StoreRequest) (s : σ) :
    List (StoreAnswer StoreError.Kind) :=
  (store.answers rs s).1.map (·.mapError StoreError.kind)

variable {σ τ α : Type} {S : Standing σ} {T : Standing τ} {s : σ} {t : τ} {m : MemoryStore}

/-- The states still stand for the same store in memory after calls. -/
structure Standing.Abreast (S : Standing σ) (T : Standing τ) (s s' : σ) (t t' : τ) : Prop where
  later : S.later s s'
  later' : T.later t t'
  stands : ∃ m, S.stands s' m ∧ T.stands t' m

/-- Calls that would end the same in memory end the same where nothing is refused. -/
theorem Standing.Ended.agree {ideal : Except StoreError.Kind (α × MemoryStore)}
    {x : Except StoreError α × σ} {y : Except StoreError α × τ} (hx : S.Ended s m ideal x)
    (hy : T.Ended t m ideal y) (hs : ∀ s', ¬ S.refused s s') (ht : ∀ t', ¬ T.refused t t') :
    x.1.mapError StoreError.kind = y.1.mapError StoreError.kind ∧
      S.Abreast T s x.2 t y.2 := by
  cases hx with
  | refused hr => exact absurd hr (hs _)
  | done hideal hl _ hstands =>
    cases hy with
    | refused hr => exact absurd hr (ht _)
    | done hideal' hl' _ hstands' =>
      rw [hideal] at hideal'
      cases hideal'
      exact ⟨rfl, hl, hl', _, hstands, hstands'⟩
    | failed hideal' =>
      rw [hideal] at hideal'
      cases hideal'
  | failed hideal hl hstands =>
    cases hy with
    | refused hr => exact absurd hr (ht _)
    | done hideal' =>
      rw [hideal] at hideal'
      cases hideal'
    | failed hideal' hl' hstands' =>
      rw [hideal] at hideal'
      have hkind := Except.error.inj hideal'
      exact ⟨congrArg Except.error hkind, hl, hl', _, hstands, hstands'⟩

/-- A call gets the same answer from both kinds of store, when no request is refused and its time is
not up before its batch. -/
theorem Standing.Realizes.agree {store : PolicyStore σ} {store' : PolicyStore τ}
    (hS : S.Realizes store) (hT : T.Realizes store') (hs : S.stands s m) (ht : T.stands t m)
    (hqs : ∀ s', ¬ S.refused s s') (hqt : ∀ t', ¬ T.refused t t')
    {r r' : StoreRequest} (hes : r.limit?.any (S.early s) = false)
    (het : r'.limit?.any (T.early t) = false) (h : r.Alike r') :
    (store.answer r s).1.mapError StoreError.kind =
        (store'.answer r' t).1.mapError StoreError.kind ∧
      S.Abreast T s (store.answer r s).2 t (store'.answer r' t).2 := by
  cases h with
  | all =>
    obtain ⟨hkind, hnext⟩ := (hS.all hs).agree (hT.all ht) hqs hqt
    exact ⟨congrArg StoreAnswer.policies hkind, hnext⟩
  | @write w ps limit limit' hup =>
    have hx := hS.write hs w ps limit
    have hy := hT.write ht w ps limit'
    have hstart : limit.any (S.early s) = false := hes
    have hstart' : limit'.any (T.early t) = false := het
    rw [hstart, hup] at hx
    rw [hstart'] at hy
    obtain ⟨hkind, hnext⟩ := hx.agree hy hqs hqt
    exact ⟨congrArg StoreAnswer.done hkind, hnext⟩
  | byGuids =>
    obtain ⟨hkind, hnext⟩ := (hS.byGuids hs _ _).agree (hT.byGuids ht _ _) hqs hqt
    exact ⟨congrArg StoreAnswer.policies hkind, hnext⟩
  | tags =>
    obtain ⟨hkind, hnext⟩ := (hS.tags hs).agree (hT.tags ht) hqs hqt
    exact ⟨congrArg StoreAnswer.tags hkind, hnext⟩
  | check =>
    obtain ⟨hkind, hnext⟩ := (hS.check hs).agree (hT.check ht) hqs hqt
    exact ⟨congrArg StoreAnswer.done hkind, hnext⟩

/-- Calls that come one after the other are answered as by the store in memory that the state stands
for, when no request is refused and no write finds its time up before its batch. -/
theorem Standing.Realizes.verdicts_eq {store : PolicyStore σ} (hS : S.Realizes store)
    (hsince : ∀ {s s' s''}, S.later s s' → S.refused s' s'' → S.refused s s'')
    (hs : S.stands s m) (hq : ∀ s', ¬ S.refused s s') {rs rs' : List StoreRequest}
    (hearly : ∀ r ∈ rs, ∀ s, r.limit?.any (S.early s) = false)
    (h : List.Forall₂ StoreRequest.Alike rs rs') :
    store.verdicts rs s = MemoryStore.store.verdicts rs' m := by
  induction h generalizing s m with
  | nil => rfl
  | @cons r r' rs rs' hr _ ih =>
    have hm : MemoryStore.standing.stands m m := ⟨rfl, S.valid hs⟩
    have hstart : r'.limit?.any (MemoryStore.standing.early m) = false := by
      cases r'.limit? <;> rfl
    obtain ⟨hkind, hl, -, m', hs', hm'⟩ := hS.agree (T := MemoryStore.standing) MemoryStore.realizes
      hs hm hq (fun _ => not_false) (hearly r List.mem_cons_self s) hstart hr
    have hrest := ih hs' (fun s'' hr => hq s'' (hsince hl hr)) fun r hr =>
      hearly r (List.mem_cons_of_mem _ hr)
    rw [← hm'.1] at hrest
    exact List.cons_eq_cons.mpr ⟨hkind, hrest⟩

namespace SqliteStore

/-- A server that refuses nothing answers one call after the other as the store in memory does. -/
theorem verdicts_eq {s : SqliteStore} {m : MemoryStore} (hs : standing.stands s m)
    (hnever : s.server.refuses = fun _ => none) {rs rs' : List StoreRequest}
    (h : List.Forall₂ StoreRequest.Alike rs rs') :
    store.verdicts rs s = MemoryStore.store.verdicts rs' m := by
  refine realizes.verdicts_eq (fun hl hr => hl.refusedSince hr) hs
    (fun s' => Database.Server.not_refusedSince_of_never hnever s'.server) (fun r _ s => ?_) h
  cases r.limit? <;> rfl

/-- A store started on a fresh file and one in memory with as many groups give the same answers to
the same calls; failures are of the same kind. It starts if its groups can be numbered. -/
theorem answers_eq_memory (l : TagLength) {n : Nat} (hn : 1 ≤ n) :
    ((openOn l n {}).1 = .ok () ↔ n ≤ Database.maxGroup) ∧
      ∀ s, openOn l n {} = (.ok (), s) →
        ∀ rs rs', List.Forall₂ StoreRequest.Alike rs rs' →
          store.verdicts rs s = MemoryStore.store.verdicts rs' (.empty l n) := by
  refine ⟨openOn_fresh_eq_ok, fun s h rs rs' hrs => ?_⟩
  obtain ⟨hs, hpre⟩ := stands_of_openOn (m := .empty l 0) (Or.inr fun _ => ⟨rfl, rfl⟩)
    (MemoryStore.valid_empty l 0) (Database.Tables.represents_empty l) (Or.inl rfl) h
  have hsize : (MemoryStore.empty l 0).enlarge l (max 1 n) = .empty l n := by
    simp [MemoryStore.empty, MemoryStore.enlarge, hn]
  exact verdicts_eq (hsize ▸ hs) hpre.refuses hrs

/-- Two groups: the second policy finds none, and a batch is late on both clocks. -/
theorem answers_eq_memory_two_groups :
    1 ≤ 2 ∧ ∃ s, openOn .oneByte 2 {} = (.ok (), s) ∧
      store.verdicts
        [.write .create [⟨⟨"a", ""⟩, ⟨"b", "", "tcp", ⟨80, 81⟩⟩⟩] none,
          .write .create [⟨⟨"a", ""⟩, ⟨"c", "", "tcp", ⟨80, 81⟩⟩⟩] none,
          .write .delete [⟨⟨"a", ""⟩, ⟨"b", "", "tcp", ⟨80, 81⟩⟩⟩] (some (.at ⟨1, some 1⟩ 2)),
          .tags] s =
        [.done (.ok ()), .done (.error .capacity), .done (.error .timeout),
          .tags (.ok [⟨"a", "01"⟩, ⟨"b", "02"⟩])] := by
  have hstart : (openOn .oneByte 2 {}).1 = .ok () :=
    (answers_eq_memory .oneByte (by decide)).1.mpr (by decide)
  refine ⟨by decide, (openOn .oneByte 2 {}).2, Prod.ext hstart rfl, ?_⟩
  refine ((answers_eq_memory .oneByte (by decide)).2 _ (Prod.ext hstart rfl) _
    [.write .create [⟨⟨"a", ""⟩, ⟨"b", "", "tcp", ⟨80, 81⟩⟩⟩] none,
      .write .create [⟨⟨"a", ""⟩, ⟨"c", "", "tcp", ⟨80, 81⟩⟩⟩] none,
      .write .delete [⟨⟨"a", ""⟩, ⟨"b", "", "tcp", ⟨80, 81⟩⟩⟩] (some (.at ⟨1, some 5⟩ 6)),
      .tags] ?_).trans rfl
  exact .cons (.write rfl) (.cons (.write rfl) (.cons (.write rfl) (.cons .tags .nil)))

end SqliteStore

namespace PostgresStore

/-- An empty database can be opened exactly if its groups can be numbered. -/
theorem openOn_fresh_eq_ok {c : PostgresConfig} {l : TagLength} (hl : checkConfig c = .ok l) :
    (openOn c {}).1 = .ok () ↔ poolSize c l ≤ Database.maxGroup := by
  have hend := @ending_prepare {} rfl (Or.inr fun _ => ⟨rfl, rfl⟩) (poolSize c l)
  have hnever := Database.Server.not_refusedSince_of_never (s := {}) rfl
  simp only [openOn, hl]
  change ((prepare (poolSize c l)).run {}).1 = .ok () ↔ _
  generalize (prepare (poolSize c l)).run {} = r at hend
  by_cases hn : Database.maxGroup < poolSize c l
  · rw [if_pos hn] at hend
    cases hend with
    | abandoned => exact iff_of_false (fun h => nomatch h) (Nat.not_le.mpr hn)
  · rw [if_neg hn] at hend
    obtain ⟨t, hprepared⟩ : ∃ t, prepared (poolSize c l) ({} : Database.Server).tables = .ok ((), t) :=
      ⟨_, rfl⟩
    rw [hprepared] at hend
    cases hend with
    | committed => exact iff_of_true rfl (Nat.not_lt.mp hn)
    | abandoned _ _ _ h => exact absurd (h.resolve_left fun h => nomatch h).1 (hnever _)

/-- A store started on an empty database and one in memory with as many groups give the same answers
to the same calls; failures are of the same kind. The database looks at the time also before a batch:
writes without a limit, and those whose time is not up there, are answered alike. The store starts if
its groups can be numbered. -/
theorem agrees_with_memory {c : PostgresConfig} {l : TagLength} (hl : checkConfig c = .ok l) :
    ((openOn c {}).1 = .ok () ↔ poolSize c l ≤ Database.maxGroup) ∧
      ∀ s, openOn c {} = (.ok (), s) → ∀ rs rs', List.Forall₂ StoreRequest.Alike rs rs' →
        (∀ r ∈ rs, r.limit?.any isUpAtOpening = false) →
          store.verdicts rs s = MemoryStore.store.verdicts rs' (.empty l (poolSize c l)) := by
  refine ⟨openOn_fresh_eq_ok hl, fun s h rs rs' hrs hearly => ?_⟩
  obtain ⟨hs, hpre, hlength⟩ := stands_of_openOn (m := .empty l 0) (Or.inr fun _ => ⟨rfl, rfl⟩)
    (MemoryStore.valid_empty l 0) (Database.Tables.represents_empty l) h
  obtain rfl := Except.ok.inj (hl.symm.trans hlength)
  have hsize : (MemoryStore.empty s.tagLength 0).enlarge s.tagLength (poolSize c s.tagLength) =
      .empty s.tagLength (poolSize c s.tagLength) := by
    simp [MemoryStore.empty, MemoryStore.enlarge]
  have hnever := Database.Server.not_refusedSince_of_never (s := s.server) hpre.refuses
  exact realizes.verdicts_eq (fun hl hr => hl.refusedSince hr) (hsize ▸ hs)
    (fun s' => hnever s'.server) (fun r hr _ => hearly r hr) hrs

/-- Three groups: a policy that names two new applications finds none for the second of them, and the
first keeps none either. After a deletion the lowest group is given anew. -/
theorem agrees_with_memory_three_groups :
    let c : PostgresConfig := { poolSize := some 3 }
    let p : Policy := ⟨⟨"a", ""⟩, ⟨"b", "", "tcp", ⟨80, 81⟩⟩⟩
    checkConfig c = .ok .oneByte ∧ ∃ s, openOn c {} = (.ok (), s) ∧
      store.verdicts
        [.write .create [p] none,
          .write .create [⟨⟨"c", ""⟩, ⟨"d", "", "tcp", ⟨80, 81⟩⟩⟩] none,
          .write .create [⟨⟨"c", ""⟩, ⟨"b", "", "udp", ⟨53, 53⟩⟩⟩] none,
          .write .delete [p] none,
          .write .create [⟨⟨"b", ""⟩, ⟨"d", "", "tcp", ⟨80, 81⟩⟩⟩] none,
          .byGuids ["b"] [],
          .tags] s =
        [.done (.ok ()), .done (.error .capacity), .done (.ok ()), .done (.ok ()), .done (.ok ()),
          .policies (.ok [⟨⟨"b", "02"⟩, ⟨"d", "01", "tcp", ⟨80, 81⟩⟩⟩]),
          .tags (.ok [⟨"d", "01"⟩, ⟨"b", "02"⟩, ⟨"c", "03"⟩])] := by
  intro c p
  have hl : checkConfig c = .ok .oneByte := rfl
  have hstart : (openOn c {}).1 = .ok () := (agrees_with_memory hl).1.mpr (by decide)
  refine ⟨hl, (openOn c {}).2, Prod.ext hstart rfl, ?_⟩
  have hagree := (agrees_with_memory hl).2 _ (Prod.ext hstart rfl)
  refine (hagree _
    [.write .create [p] none,
      .write .create [⟨⟨"c", ""⟩, ⟨"d", "", "tcp", ⟨80, 81⟩⟩⟩] none,
      .write .create [⟨⟨"c", ""⟩, ⟨"b", "", "udp", ⟨53, 53⟩⟩⟩] none,
      .write .delete [p] none,
      .write .create [⟨⟨"b", ""⟩, ⟨"d", "", "tcp", ⟨80, 81⟩⟩⟩] none,
      .byGuids ["b"] [],
      .tags] ?_ (by decide)).trans (by decide +kernel)
  exact .cons (.write rfl) (.cons (.write rfl) (.cons (.write rfl) (.cons (.write rfl)
    (.cons (.write rfl) (.cons .byGuids (.cons .tags .nil))))))

end PostgresStore
end NetworkPolicy
