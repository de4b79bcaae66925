import NetworkPolicy.Proofs.Store.Batches
import NetworkPolicy.Proofs.Store.Calls

/-! What makes a kind of store as good as the store in memory: while its state stands for one in
memory, each call ends as it would there, or it fails for a refusal and changes nothing. -/
namespace NetworkPolicy

/-! ### Calls on a store in memory -/

namespace MemoryStore

/-- The batch carried out, if there are groups for it. -/
def written : Write → List Policy → MemoryStore → Except StoreError MemoryStore
  | .create, ps, m => ps.foldlM createOne m
  | .delete, ps, m => .ok (m.without ps)

/-- How a write ends whose time is up before its batch when `early` says so, and at its commit when
`late` does. -/
def attempt (m : MemoryStore) (w : Write) (ps : List Policy) (early late : Bool) :
    Except StoreError.Kind (Unit × MemoryStore) :=
  if early then .error .timeout
  else
    match m.written w ps with
    | .error _ => .error .capacity
    | .ok m' => if late then .error .timeout else .ok ((), m')

variable {m m' : MemoryStore} {w : Write} {ps : List Policy}

theorem attempt_eq_ok {early late : Bool} {a : Unit} :
    m.attempt w ps early late = .ok (a, m') ↔
      early = false ∧ late = false ∧ m.written w ps = .ok m' := by
  unfold attempt
  cases early <;> cases late <;> cases m.written w ps <;> simp

theorem attempt_eq_error {early late : Bool} :
    (∃ k, m.attempt w ps early late = .error k) ↔
      early = true ∨ late = true ∨ ∃ e, m.written w ps = .error e := by
  unfold attempt
  cases early <;> cases late <;> cases m.written w ps <;> simp

theorem attempt_of_error {e : StoreError} {late : Bool} (h : m.written w ps = .error e) :
    m.attempt w ps false late = .error .capacity := by
  unfold attempt
  rw [h]
  rfl

theorem Valid.written (hm : m.Valid) (h : m.written w ps = .ok m') :
    m'.Valid ∧ m'.tagLength = m.tagLength ∧ m'.groups.size = m.groups.size := by
  cases w with
  | create =>
    obtain ⟨hm', hext, -, -⟩ := hm.createAll h
    exact ⟨hm', hext.tagLength, hext.size⟩
  | delete =>
    cases h
    exact ⟨hm.without ps, rfl, rfl⟩

/-- The store with tags of another width and at least so many groups. -/
def enlarge (m : MemoryStore) (l : TagLength) (n : Nat) : MemoryStore :=
  { m with tagLength := l, groups := { m.groups with size := max m.groups.size n } }

theorem Valid.enlarge (hm : m.Valid) (l : TagLength) (n : Nat) : (m.enlarge l n).Valid where
  groups :=
    { increasing := hm.groups.increasing
      sorted := hm.groups.sorted
      inverse := hm.groups.inverse
      bounded := fun e he => ⟨(hm.groups.bounded e he).1,
        Nat.le_trans (hm.groups.bounded e he).2 (Nat.le_max_left _ _)⟩ }
  rows := hm.rows
  assigned_iff := hm.assigned_iff

theorem commit_ok (m m' : MemoryStore) (limit : Option TimeLimit) :
    m.commit limit (.ok m') =
      if limit.any TimeLimit.isUp then
        (.error (.timeout (limit.elim 0 (·.deadline.millis))), m)
      else (.ok (), m') := by
  cases limit <;> rfl

end MemoryStore

/-! ### Realizations -/

/-- How the states of a kind of store stand for stores in memory. -/
structure Standing (σ : Type) where
  stands : σ → MemoryStore → Prop
  valid : ∀ {s m}, stands s m → m.Valid
  /-- The second state comes of the first by calls. -/
  later : σ → σ → Prop
  /-- A request was refused between the two states. -/
  refused : σ → σ → Prop
  /-- The time of a write is up before its batch. -/
  early : σ → TimeLimit → Bool

variable {σ τ α : Type}

/-- How a call on `s` ends when on `m`, which `s` stands for, it would end as `ideal` says: like that,
or with a refusal, after which the state still stands for `m`. -/
inductive Standing.Ended (S : Standing σ) (s : σ) (m : MemoryStore)
    (ideal : Except StoreError.Kind (α × MemoryStore)) : Except StoreError α × σ → Prop where
  | done {a : α} {m' : MemoryStore} {s' : σ} : ideal = .ok (a, m') → S.later s s' →
      ¬ S.refused s s' → S.stands s' m' → Ended S s m ideal (.ok a, s')
  | failed {e : StoreError} {s' : σ} : ideal = .error e.kind → S.later s s' → S.stands s' m →
      Ended S s m ideal (.error e, s')
  | refused {e : StoreError} {s' : σ} : S.refused s s' → S.later s s' → S.stands s' m →
      Ended S s m ideal (.error e, s')

/-- Every call ends as it would in memory, or with a refusal. -/
structure Standing.Realizes (S : Standing σ) (store : PolicyStore σ) : Prop where
  all : ∀ {s m}, S.stands s m → S.Ended s m (.ok (m.policies, m)) (store.all s)
  write : ∀ {s m}, S.stands s m → ∀ w ps limit, S.Ended s m
    (m.attempt w ps (limit.any (S.early s)) (limit.any TimeLimit.isUp)) (store.write w ps limit s)
  byGuids : ∀ {s m}, S.stands s m → ∀ sources destinations, S.Ended s m
    (.ok (m.policies.filter fun p =>
      sources.contains p.source.id || destinations.contains p.destination.id, m))
    (store.byGuids sources destinations s)
  tags : ∀ {s m}, S.stands s m → S.Ended s m (.ok (m.tags, m)) (store.tags s)
  check : ∀ {s m}, S.stands s m → S.Ended s m (.ok ((), m)) (store.check s)

variable {S : Standing σ} {T : Standing τ} {s : σ} {m : MemoryStore}
  {ideal : Except StoreError.Kind (α × MemoryStore)}

/-- A call ends alike in states that are put into a larger kind of state. -/
theorem Standing.Ended.map {f : σ → τ} (hstands : ∀ s m, S.stands s m → T.stands (f s) m)
    (hlater : ∀ s s', S.later s s' → T.later (f s) (f s'))
    (hrefused : ∀ s s', T.refused (f s) (f s') ↔ S.refused s s') {r : Except StoreError α × σ}
    (h : S.Ended s m ideal r) : T.Ended (f s) m ideal (r.1, f r.2) := by
  cases h with
  | done hideal hl hq hs' =>
    exact .done hideal (hlater _ _ hl) (mt (hrefused _ _).mp hq) (hstands _ _ hs')
  | failed hideal hl hs' => exact .failed hideal (hlater _ _ hl) (hstands _ _ hs')
  | refused hr hl hs' => exact .refused ((hrefused _ _).mpr hr) (hlater _ _ hl) (hstands _ _ hs')

theorem Standing.Ended.later {r : Except StoreError α × σ} (h : S.Ended s m ideal r) :
    S.later s r.2 := by
  cases h with
  | done _ hl => exact hl
  | failed _ hl => exact hl
  | refused _ hl => exact hl

/-- A read that is not refused gives what it would in memory, and changes nothing. -/
theorem Standing.Ended.read {a : α} {r : Except StoreError α × σ} (h : S.Ended s m (.ok (a, m)) r)
    (hq : ¬ S.refused s r.2) : r.1 = .ok a ∧ S.stands r.2 m := by
  cases h with
  | done hideal _ _ hs' =>
    cases hideal
    exact ⟨rfl, hs'⟩
  | failed hideal => cases hideal
  | refused hr => exact absurd hr hq

/-- A call leaves a state that stands for a store in memory with as many groups and as wide tags. -/
theorem Standing.Realizes.answer {store : PolicyStore σ} (h : S.Realizes store) (hs : S.stands s m)
    (r : StoreRequest) : ∃ m', S.stands (store.answer r s).2 m' ∧ m'.tagLength = m.tagLength ∧
      m'.groups.size = m.groups.size := by
  have hread : ∀ {α : Type} {a : α} {x : Except StoreError α × σ}, S.Ended s m (.ok (a, m)) x →
      ∃ m', S.stands x.2 m' ∧ m'.tagLength = m.tagLength ∧ m'.groups.size = m.groups.size := by
    intro α a x hx
    cases hx with
    | done hideal _ _ hs' =>
      cases hideal
      exact ⟨m, hs', rfl, rfl⟩
    | failed _ _ hs' => exact ⟨m, hs', rfl, rfl⟩
    | refused _ _ hs' => exact ⟨m, hs', rfl, rfl⟩
  cases r with
  | all => exact hread (h.all hs)
  | byGuids sources destinations => exact hread (h.byGuids hs sources destinations)
  | tags => exact hread (h.tags hs)
  | check => exact hread (h.check hs)
  | write w ps limit =>
    have hw := h.write hs w ps limit
    change ∃ m', S.stands (store.write w ps limit s).2 m' ∧ _
    generalize store.write w ps limit s = x at hw ⊢
    cases hw with
    | done hideal _ _ hs' =>
      obtain ⟨-, -, hwritten⟩ := MemoryStore.attempt_eq_ok.mp hideal
      obtain ⟨-, htag, hsize⟩ := (S.valid hs).written hwritten
      exact ⟨_, hs', htag, hsize⟩
    | failed _ _ hs' => exact ⟨m, hs', rfl, rfl⟩
    | refused _ _ hs' => exact ⟨m, hs', rfl, rfl⟩

/-! ### The store in memory -/

/-- A valid store in memory stands for itself. -/
def MemoryStore.standing : Standing MemoryStore where
  stands s m := s = m ∧ m.Valid
  valid := And.right
  later _ _ := True
  refused _ _ := False
  early _ _ := false

theorem MemoryStore.Valid.write_eq {s : MemoryStore} (hs : s.Valid) (w : Write) (ps : List Policy)
    (limit : Option TimeLimit) : store.write w ps limit s = s.commit limit (s.written w ps) := by
  cases w with
  | create => rfl
  | delete => exact hs.delete_eq ps limit

theorem MemoryStore.realizes : standing.Realizes store where
  all := by
    rintro s _ ⟨rfl, hs⟩
    change Standing.Ended standing s s _ (s.all, s)
    rw [all_eq hs.named]
    exact .done rfl trivial not_false ⟨rfl, hs⟩
  write := by
    rintro s _ ⟨rfl, hs⟩ w ps limit
    have hearly : limit.any (standing.early s) = false := by cases limit <;> rfl
    rw [hs.write_eq, hearly]
    cases hw : s.written w ps with
    | error e =>
      have hkind : e.kind = .capacity := by
        cases w with
        | create => rw [createAll_error hw]; rfl
        | delete => cases hw
      refine .failed ?_ trivial ⟨rfl, hs⟩
      simp [attempt, hw, hkind]
    | ok t =>
      rw [commit_ok]
      cases hup : limit.any TimeLimit.isUp with
      | true => exact .failed (by simp [attempt, hw, StoreError.kind]) trivial ⟨rfl, hs⟩
      | false =>
        exact .done (attempt_eq_ok.mpr ⟨rfl, rfl, hw⟩) trivial not_false ⟨rfl, (hs.written hw).1⟩
  byGuids := by
    rintro s _ ⟨rfl, hs⟩ sources destinations
    change Standing.Ended standing s s _ (s.byGuids sources destinations, s)
    rw [byGuids_eq hs]
    exact .done rfl trivial not_false ⟨rfl, hs⟩
  tags := by
    rintro s _ ⟨rfl, hs⟩
    exact .done rfl trivial not_false ⟨rfl, hs⟩
  check := by
    rintro s _ ⟨rfl, hs⟩
    exact .done rfl trivial not_false ⟨rfl, hs⟩

end NetworkPolicy
