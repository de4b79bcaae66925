import NetworkPolicy.Proofs.Store.Served
import NetworkPolicy.Store.Postgres

/-! The effects of the Postgres store's computations on its tables, and how its calls end. -/
namespace NetworkPolicy.PostgresStore

open Database Session

variable {α : Type} {P : Tables → Prop} {t t' : Tables}

/-- In a transaction on the tables `t` the computation comes to `x`. -/
abbrev Yields (m : Work α) (t : Tables) (x : Except PostgresError (α × Tables)) : Prop :=
  Session.Yields HasPolicies PostgresError.ofRefusal m t x

/-! ### Statements -/

theorem yields_query (ht : P t) (text : String) (read : Tables → α) :
    Session.Yields P .ofRefusal (query text read) t (.ok (read t, t)) :=
  Session.yields_query text rfl ht

theorem yields_change {effect : Tables → Tables} (text : String) (ht : P (effect t)) :
    Session.Yields P .ofRefusal (change text effect) t (.ok ((), effect t)) := by
  unfold change execute
  exact yields_execute text rfl ht

/-! ### Creating -/

/-- How a batch fails that finds no free group. -/
def full : PostgresError := .capacity "no free rows in groups table"

/-- In a transaction the application has no group a second time, and no group is free a second
time. -/
theorem yields_claimFree (ht : HasPolicies t) {guid : String} (hguid : t.groupOf? guid = none)
    (attempts : Nat) : Yields (claimFree guid (attempts + 1)) t (t.claim full guid) := by
  unfold claimFree Tables.claim
  refine (yields_query ht _ _).bindOk fun ht => ?_
  rw [hguid]
  cases hfree : t.freeGroup? with
  | some id =>
    refine (yields_query ht _ _).bindOk fun ht => ?_
    rw [hguid]
    exact (yields_change _ ht).bindOk fun ht => yields_pure ht id
  | none =>
    refine (yields_query ht _ _).bindOk fun _ => ?_
    simp only [hfree, Option.isSome_none, Bool.false_eq_true, if_false]
    exact yields_throw full

theorem yields_claim (ht : HasPolicies t) (guid : String) :
    Yields (claim guid) t (t.claim full guid) := by
  unfold claim
  refine (yields_query ht _ _).bindOk fun ht => ?_
  cases hguid : t.groupOf? guid with
  | some id =>
    unfold Tables.claim
    rw [hguid]
    exact yields_pure ht id
  | none => exact yields_claimFree ht hguid 2

theorem destinationOf?_addDestination {group first last : Int} {protocol : String}
    (h : t.destinationOf? group first last protocol = none) :
    (t.addDestination group first last protocol).2.destinationOf? group first last protocol =
      some t.nextDestination := by
  rw [Tables.destinationOf?, Option.map_eq_none_iff] at h
  simp only [Tables.destinationOf?, Tables.addDestination, List.find?_append, h]
  simp

theorem yields_addDestination (ht : HasPolicies t) (group : Int) (p : Policy) :
    Yields (addDestination group p) t (.ok (t.ensureDestination group p.destination)) := by
  unfold addDestination Tables.ensureDestination Tables.destinationFor?
  cases hfound : t.destinationOf? group p.destination.ports.first.toNat
      p.destination.ports.last.toNat p.destination.protocol with
  | some id =>
    refine (yields_change _ ?_).bindOk fun ht' => (yields_query ht' _ _).bindOk fun ht' => ?_
    · rw [hfound]
      exact ht
    · simp only [hfound, Option.isSome_some, if_true]
      exact yields_pure ht id
  | none =>
    refine (yields_change _ ?_).bindOk fun ht' => (yields_query ht' _ _).bindOk fun ht' => ?_
    · rw [hfound]
      exact ht
    · simp only [hfound, Option.isSome_none, Bool.false_eq_true, if_false,
        destinationOf?_addDestination hfound]
      exact yields_pure (by exact ht) _

theorem yields_createOne (p : Policy) (t : Tables) (ht : HasPolicies t) :
    Yields (createOne p) t ((t.createOne full p).map ((), ·)) := by
  refine Session.yields_createOne (fun guid t ht => yields_claim ht guid)
    (fun group t ht => yields_addDestination ht group p)
    (fun source destination t ht => yields_change _ ?_) ht
  unfold Tables.addPolicy
  split_ifs <;> exact ht

/-! ### Deleting -/

theorem yields_deleteOne (p : Policy) (t : Tables) (ht : HasPolicies t) :
    Yields (deleteOne p) t (.ok (Tables.deleteOne p t)) := by
  refine Session.yields_deleteOne (fun guid t ht => yields_query ht _ _)
    (fun group t ht => yields_query ht _ _)
    (fun source destination t ht => yields_change _ ?_)
    (fun destination t ht => yields_change _ ?_) ht
  · exact ht
  · unfold Tables.removeUnusedDestination
    split_ifs <;> exact ht

theorem yields_releaseUnused (id : Int) (t : Tables) (ht : HasPolicies t) :
    Yields (releaseUnused id) t (.ok ((), t.release id)) := by
  unfold releaseUnused Tables.release
  refine (yields_query ht _ _).bindOk fun ht => ?_
  cases t.references id with
  | true => exact yields_pure ht ()
  | false => exact yields_change _ ht

/-! ### Transactions -/

/-- The time is up at the check before the batch. -/
def isUpAtOpening (l : TimeLimit) : Bool := l.deadline.expired l.opening

/-- How a write fails whose time is up. -/
def late (limit : Option TimeLimit) : PostgresError :=
  .deadlineExceeded (limit.elim 0 (·.deadline.millis))

theorem yields_checkTime (ht : P t) (d : Deadline) (now : Nat) :
    Session.Yields P .ofRefusal (checkTime d now) t
      (if d.expired now then .error (.deadlineExceeded d.millis) else .ok ((), t)) := by
  unfold checkTime
  cases d.expired now with
  | true => exact yields_throw _
  | false => exact yields_pure ht ()

/-- What a computation comes to between the looks at the clock. -/
def within (limit : Option TimeLimit) (x : Except PostgresError (α × Tables)) :
    Except PostgresError (α × Tables) :=
  if limit.any isUpAtOpening then .error (late limit)
  else
    match x with
    | .error e => .error e
    | .ok r => if limit.any TimeLimit.isUp then .error (late limit) else .ok r

/-- A computation between the looks at the clock. -/
def timed (limit : Option TimeLimit) (work : Work α) : Work α :=
  match limit with
  | none => work
  | some l => do
    checkTime l.deadline l.opening
    change s!"SET LOCAL statement_timeout = {timeoutMillis l.deadline l.passing}" id
    let a ← work
    checkTime l.deadline l.closing
    return a

theorem yields_timed {work : Work α} {x : Except PostgresError (α × Tables)}
    (limit : Option TimeLimit) (h : Session.Yields P .ofRefusal work t x) (ht : P t) :
    Session.Yields P .ofRefusal (timed limit work) t (within limit x) := by
  cases limit with
  | none => cases x <;> exact h
  | some l =>
    have hopening := yields_checkTime ht l.deadline l.opening
    by_cases hup : l.deadline.expired l.opening = true
    · have hwithin : within (some l) x = .error (late (some l)) := if_pos hup
      rw [if_pos hup] at hopening
      exact hwithin ▸ hopening.bindError
    · have hwithin : within (some l) x = _ := if_neg hup
      rw [if_neg hup] at hopening
      rw [hwithin]
      refine hopening.bindOk fun ht => (yields_change _ ht).bindOk fun _ => ?_
      cases x with
      | error e => exact h.bindError
      | ok r =>
        refine h.bindOk fun ht => ?_
        have hclosing := yields_checkTime ht l.deadline l.closing
        change Session.Yields P PostgresError.ofRefusal _ _
          (if l.deadline.expired l.closing then _ else _)
        by_cases hup : l.deadline.expired l.closing = true
        · rw [if_pos hup] at hclosing ⊢
          exact hclosing.bindError
        · rw [if_neg hup] at hclosing ⊢
          exact hclosing.bindOk fun ht => yields_pure ht r.1

/-- A transaction either has the effect of its computation or leaves the tables as they are. -/
theorem ending_transaction {s : Server} {work : Work α} {x : Except PostgresError (α × Tables)}
    (limit : Option TimeLimit) (hidle : s.working = none) (hs : s.Transactional)
    (h : Session.Yields P .ofRefusal work s.tables x) (ht : P s.tables) :
    Ending .ofRefusal s (within limit x) ((transaction limit work).run s) := by
  have hrun : transaction limit work = (do
      let a ← orRollback do
        start PostgresError.ofRefusal "START TRANSACTION" refusalText
        timed limit work
      commit PostgresError.ofRefusal
      return a) := rfl
  have hout := outcome_start "START TRANSACTION" refusalText hidle
    (yields_timed limit h ht)
  rw [hrun, run_bind, run_orRollback]
  generalize (start _ _ _ >>= fun _ => _).run s = y at hout ⊢
  generalize within limit x = x at hout ⊢
  cases hout with
  | @ok a t s' hpre hq htab hw =>
    dsimp only
    rw [run_bind, run_commit]
    cases hcommit : s'.refuses (.commit :: s'.sent) with
    | none => exact .ofCommit hpre hq hw hcommit
    | some why =>
      obtain ⟨hend, hendtab⟩ := refuseEnd_spec (s'.after .commit)
      have hafter := hpre.trans (s'.precedes_after .commit)
      exact .abandoned (hafter.trans hend) (refuseEnd_idle (hs.mono hafter) hcommit)
        (hendtab.trans htab) (Or.inr ⟨(refusedSince_commit hpre hcommit).mono hend, why, rfl⟩)
  | error hpre _ htab => exact .ofRollback hs hpre htab (Or.inl rfl)
  | refused hpre hr htab => exact .ofRollback hs hpre htab (Or.inr ⟨hr, _, rfl⟩)

/-! ### Calls -/

theorem readRow_joinedRow {m : MemoryStore} (hm : m.Named) {r : MemoryRow} (hr : r ∈ m.rows) :
    readRow m.tagLength (joinedRow m r) = .ok (m.policyOf r) := by
  obtain ⟨a, b, ha, hb⟩ := hm r hr
  have hsource : (joinedRow m r).source.guid = some a := ha
  have hdestination : (joinedRow m r).destination.guid = some b := hb
  simp only [readRow, hsource, hdestination, storedPolicy_joinedRow ha hb]
  rfl

/-- A store stands for what its server's tables hold. -/
def standing : Standing PostgresStore where
  stands s m := s.server.Holds s.tagLength m
  valid := Server.Holds.valid
  later s s' := s.server.Precedes s'.server
  refused s s' := s.server.RefusedSince s'.server
  early _ := isUpAtOpening

variable {s : PostgresStore} {m : MemoryStore}

theorem ended_perform {ideal : Except StoreError.Kind (α × MemoryStore)} {work : Work α}
    (h : (Server.standing s.tagLength isUpAtOpening).Ended s.server m ideal
      ((work.run s.server).1.mapError (·.toStoreError s.statementTimeout),
        (work.run s.server).2)) :
    standing.Ended s m ideal (s.perform work) :=
  h.map (f := fun server => { s with server := server }) (fun _ _ h => h) (fun _ _ h => h)
    fun _ _ => Iff.rfl

theorem ended_readPolicies (hs : s.server.Holds s.tagLength m) (condition : String)
    {rows : Tables → List JoinedRow} {ps : List Policy}
    (hps : (rows s.server.tables).mapM (readRow s.tagLength) = .ok ps) :
    standing.Ended s m (.ok (ps, m)) (s.perform (readPolicies s.tagLength condition rows)) := by
  have hend : Ending .ofRefusal s.server (.ok (ps, s.server.tables))
      ((readPolicies s.tagLength condition rows).run s.server) := by
    refine Ending.bindPure (ending_query _ hs.idle rfl) ?_
    rw [hps]
  exact ended_perform (hend.ended_read hs)

theorem within_write (t : Tables) (w : Write) (ps : List Policy) (limit : Option TimeLimit) :
    within limit ((t.write full w ps).map ((), ·)) =
      t.attempt full (late limit) w ps (limit.any isUpAtOpening) (limit.any TimeLimit.isUp) := by
  unfold within Tables.attempt
  cases t.write full w ps <;> rfl

/-- How a write ends on tables. -/
abbrev attempted (w : Write) (ps : List Policy) (limit : Option TimeLimit) (t : Tables) :
    Except PostgresError (Unit × Tables) :=
  t.attempt full (late limit) w ps (limit.any isUpAtOpening) (limit.any TimeLimit.isUp)

/-- The batch of a write. -/
def batch : Write → List Policy → Work Unit
  | .create, ps => ps.forM createOne
  | .delete, ps => do
    let touched ← ps.mapM deleteOne
    (increasing touched.flatten).forM releaseUnused

theorem yields_batch (ht : HasPolicies t) (w : Write) (ps : List Policy) :
    Yields (batch w ps) t ((t.write full w ps).map ((), ·)) := by
  cases w with
  | create => exact yields_createAll yields_createOne ht
  | delete => exact yields_deleteAll yields_deleteOne yields_releaseUnused ht

theorem write_eq (s : PostgresStore) (w : Write) (ps : List Policy) (limit : Option TimeLimit) :
    store.write w ps limit s = s.perform (transaction limit (batch w ps)) := by
  cases w <;> rfl

theorem ending_write (hs : s.server.Holds s.tagLength m) (w : Write) (ps : List Policy)
    (limit : Option TimeLimit) :
    Ending .ofRefusal s.server (attempted w ps limit s.server.tables)
      ((transaction limit (batch w ps)).run s.server) := by
  rw [attempted, ← within_write]
  exact ending_transaction limit hs.idle hs.transactional (yields_batch hs.hasPolicies w ps)
    hs.hasPolicies

theorem realizes : standing.Realizes store where
  all := by
    intro s m hs
    refine ended_readPolicies hs "" ?_
    obtain ⟨-, -, -, hrep, hvalid, htag⟩ := hs
    exact htag ▸ hrep.mapM_joined hvalid.groups hvalid.named fun r hr =>
      readRow_joinedRow hvalid.named hr
  write := by
    intro s m hs w ps limit
    rw [write_eq]
    refine ended_perform ((ending_write hs w ps limit).ended_write hs (fun a t' ht' => ?_) rfl rfl)
    obtain ⟨-, -, hw⟩ := Tables.attempt_eq_ok.mp ht'
    exact (yields_batch hs.hasPolicies w ps).keeps a t' (by rw [hw]; rfl)
  byGuids := by
    intro s m hs sources destinations
    change standing.Ended s m _ (s.perform (readPolicies s.tagLength _ fun t =>
      t.joinedFor sources destinations))
    refine ended_readPolicies hs _ ?_
    obtain ⟨-, -, -, hrep, hvalid, htag⟩ := hs
    exact htag ▸ hrep.mapM_joinedFor hvalid.groups hvalid.named (fun r hr =>
      readRow_joinedRow hvalid.named hr) sources destinations
  tags := by
    intro s m hs
    have hend : Ending .ofRefusal s.server (.ok (m.tags, s.server.tables))
        ((readTags s.tagLength).run s.server) := by
      refine Ending.bindPure (ending_query _ hs.idle rfl) ?_
      rw [← hs.tagLength, hs.represents.mapM_assigned hs.valid.groups]
    exact ended_perform (hend.ended_read hs)
  check := by
    intro s m hs
    have hend : Ending .ofRefusal s.server (.ok ((), s.server.tables))
        ((query "SELECT 1" fun _ => ()).run s.server) := ending_query _ hs.idle rfl
    exact ended_perform (hend.ended_read hs)

/-! ### Opened stores -/

/-- What preparing a database makes of its tables. -/
def prepared (n : Nat) (t : Tables) : Except PostgresError (Unit × Tables) :=
  match t.versions.head? with
  | none => .ok ((), Tables.provision { t.createMissing with versions := [schemaVersion] } n)
  | some v =>
    if v ≠ schemaVersion then .error (.invalid s!"unsupported schema version: {v}")
    else .ok ((), t.createMissing.provision n)

theorem prepared_eq_ok {n : Nat} {a : Unit} (h : prepared n t = .ok (a, t')) :
    ∃ versions, t' = Tables.provision { t with versions := versions, hasPolicies := true } n := by
  unfold prepared at h
  cases hv : t.versions.head? with
  | none =>
    simp only [hv] at h
    cases h
    exact ⟨_, rfl⟩
  | some v =>
    simp only [hv] at h
    split_ifs at h
    cases h
    exact ⟨t.versions, rfl⟩

/-- Preparing is refused for too many groups, and else a transaction. -/
theorem ending_prepare {s : Server} (hidle : s.working = none) (hs : s.Transactional) (n : Nat) :
    Ending .ofRefusal s
      (if maxGroup < n then .error (.invalid "pool size exceeds bigint") else prepared n s.tables)
      ((prepare n).run s) := by
  unfold prepare
  by_cases hn : maxGroup < n
  · rw [if_pos hn, if_pos hn]
    exact .abandoned (.refl s) hidle rfl (Or.inl rfl)
  · rw [if_neg hn, if_neg hn]
    have hwithin : ∀ x : Except PostgresError (Unit × Tables), within none x = x := by
      intro x
      cases x <;> rfl
    rw [← hwithin (prepared n s.tables)]
    refine ending_transaction (P := fun _ => True) none hidle hs ?_ trivial
    refine (yields_change _ trivial).bindOk fun _ => (yields_change _ trivial).bindOk fun _ =>
      (yields_query trivial _ _).bindOk fun _ => ?_
    unfold prepared
    dsimp only [id, Tables.createMissing]
    cases s.tables.versions.head? with
    | none =>
      exact (yields_change _ trivial).bindOk fun _ => yields_change (P := fun _ => True) _ trivial
    | some v =>
      by_cases hv : v ≠ schemaVersion
      · simp only [if_pos hv]
        exact (yields_throw _).bindError
      · simp only [if_neg hv]
        exact yields_change (P := fun _ => True) _ trivial

/-- A store that was opened stands for what was stored before, with room for as many groups. -/
theorem stands_of_openOn {server : Server} {c : PostgresConfig} (hserver : server.Transactional)
    (hm : m.Valid) (hrep : server.tables.Represents m) (h : openOn c server = (.ok (), s)) :
    standing.stands s (m.enlarge s.tagLength (poolSize c s.tagLength)) ∧
      server.Precedes s.server ∧ checkConfig c = .ok s.tagLength := by
  unfold openOn at h
  cases hl : checkConfig c with
  | error e => simp [hl] at h
  | ok l =>
    have hend := @ending_prepare { server with working := none } rfl hserver (poolSize c l)
    simp only [hl, Prod.mk.injEq] at h
    obtain ⟨hr, rfl⟩ := h
    generalize (prepare (poolSize c l)).run { server with working := none } = r at hend hr
    obtain ⟨r, server'⟩ := r
    subst hr
    split_ifs at hend
    · cases hend
    · generalize hx : prepared _ _ = x at hend
      cases hend with
      | committed hpre _ hidle =>
        obtain ⟨versions, ht⟩ := prepared_eq_ok hx
        have htables := hrep.provision hm versions l (poolSize c l)
        have hpre' : server.Precedes server' := ⟨hpre.sent, hpre.refuses, hpre.endsWhenRefused⟩
        exact ⟨⟨hidle, hserver.mono hpre', by rw [ht]; rfl, ht ▸ htables, hm.enlarge l _, rfl⟩,
          hpre', rfl⟩

end NetworkPolicy.PostgresStore
