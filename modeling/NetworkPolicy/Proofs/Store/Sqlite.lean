import NetworkPolicy.Proofs.Store.Condition
import NetworkPolicy.Proofs.Store.Recursion
import NetworkPolicy.Proofs.Store.Served

/-! The effects of the SQLite store's computations on its tables. -/
namespace NetworkPolicy.SqliteStore

open Database Session

variable {α : Type} {P : Tables → Prop} {t t' : Tables}

/-- In a transaction on the tables `t` the computation comes to `x`. -/
abbrev Yields (m : Work α) (t : Tables) (x : Except SqliteError (α × Tables)) : Prop :=
  Session.Yields HasPolicies SqliteError.ofRefusal m t x

/-! ### Statements -/

theorem yields_query (ht : P t) (text : String) (read : Tables → α) :
    Session.Yields P .ofRefusal (query text read) t (.ok (read t, t)) :=
  Session.yields_query text rfl ht

theorem yields_change {effect : Tables → Tables} (text : String) (ht : P (effect t)) :
    Session.Yields P .ofRefusal (change text effect) t (.ok ((), effect t)) := by
  unfold change execute
  exact yields_execute text rfl ht

theorem withPolicies_eq (ht : HasPolicies t) (a : α) : withPolicies t a = .ok a := if_pos ht

theorem yields_changePolicies {effect : Tables → Tables} (text : String) (ht : HasPolicies t)
    (ht' : HasPolicies (effect t)) :
    Yields (execute text fun t => withPolicies t ((), effect t)) t (.ok ((), effect t)) := by
  unfold execute
  exact yields_execute text (withPolicies_eq ht _) ht'

theorem yields_queryPolicies (text : String) (read : Tables → α) (ht : HasPolicies t) :
    Yields (Session.query .ofRefusal text fun t => withPolicies t (read t)) t (.ok (read t, t)) :=
  Session.yields_query text (withPolicies_eq ht _) ht

/-! ### Creating -/

/-- How a batch fails that finds no free group. -/
def full : SqliteError := .capacity "no free rows in groups table"

theorem yields_claim (ht : HasPolicies t) (guid : String) :
    Yields (claim guid) t (t.claim full guid) := by
  unfold claim Tables.claim
  refine (yields_query ht _ _).bindOk fun ht => ?_
  cases t.groupOf? guid with
  | some id => exact yields_pure ht id
  | none =>
    refine (yields_query ht _ _).bindOk fun ht => ?_
    cases t.freeGroup? with
    | none => exact yields_throw full
    | some id => exact (yields_change _ ht).bindOk fun ht => yields_pure ht id

theorem yields_addDestination (ht : HasPolicies t) (group : Int) (p : Policy) :
    Yields (addDestination group p) t (.ok (t.ensureDestination group p.destination)) := by
  unfold addDestination Tables.ensureDestination Tables.destinationFor?
  refine (yields_query ht _ _).bindOk fun ht => ?_
  generalize t.destinationOf? group _ _ _ = found
  cases found with
  | some id => exact yields_pure ht id
  | none =>
    unfold execute
    exact yields_execute _ rfl ht

theorem yields_createOne (p : Policy) (t : Tables) (ht : HasPolicies t) :
    Yields (createOne p) t ((t.createOne full p).map ((), ·)) := by
  refine Session.yields_createOne (fun guid t ht => yields_claim ht guid)
    (fun group t ht => yields_addDestination ht group p)
    (fun source destination t ht => yields_changePolicies _ ht ?_) ht
  unfold Tables.addPolicy
  split_ifs <;> exact ht

/-! ### Deleting -/

theorem yields_deleteOne (p : Policy) (t : Tables) (ht : HasPolicies t) :
    Yields (deleteOne p) t (.ok (Tables.deleteOne p t)) := by
  refine Session.yields_deleteOne (fun guid t ht => yields_query ht _ _)
    (fun group t ht => yields_query ht _ _)
    (fun source destination t ht => yields_changePolicies _ ht ht)
    (fun destination t ht => yields_changePolicies _ ht ?_) ht
  unfold Tables.removeUnusedDestination
  split_ifs <;> exact ht

theorem yields_releaseUnused (id : Int) (t : Tables) (ht : HasPolicies t) :
    Yields (releaseUnused id) t (.ok ((), t.release id)) := by
  unfold releaseUnused Tables.release
  refine (yields_queryPolicies _ _ ht).bindOk fun ht => ?_
  cases t.references id with
  | true => exact yields_pure ht ()
  | false => exact yields_change _ ht

/-! ### Transactions -/

/-- A transaction either has the effect of its computation or leaves the tables as they are. -/
theorem ending_transaction {s : Server} {work : Work α} {x : Except SqliteError (α × Tables)}
    (mode : String) (hidle : s.working = none) (hs : s.Transactional)
    (h : Session.Yields P .ofRefusal work s.tables x) :
    Ending .ofRefusal s x ((transaction mode work).run s) := by
  have hout := outcome_start mode "cannot start a transaction within a transaction" hidle h
  unfold transaction
  rw [← bind_assoc, run_orRollback, run_bind]
  generalize (start _ _ _ >>= fun _ => work).run s = y at hout ⊢
  cases hout with
  | @ok a t s' hpre hq htab hw =>
    dsimp only
    rw [run_bind, run_commit]
    cases hcommit : s'.refuses (.commit :: s'.sent) with
    | none => exact .ofCommit hpre hq hw hcommit
    | some why =>
      obtain ⟨hend, hendtab⟩ := refuseEnd_spec (s'.after .commit)
      exact .ofRollback hs (hpre.trans ((s'.precedes_after .commit).trans hend))
        (hendtab.trans htab) (Or.inr ⟨(refusedSince_commit hpre hcommit).mono hend, why, rfl⟩)
  | error hpre _ htab => exact .ofRollback hs hpre htab (Or.inl rfl)
  | refused hpre hr htab => exact .ofRollback hs hpre htab (Or.inr ⟨hr, _, rfl⟩)

/-- How a write fails whose time is up. -/
def late (limit : Option TimeLimit) : SqliteError := .timeout (limit.elim 0 (·.deadline.millis))

theorem yields_checkTime (ht : HasPolicies t) (limit : Option TimeLimit) :
    Yields (checkTime limit) t
      (if limit.any TimeLimit.isUp then .error (late limit) else .ok ((), t)) := by
  cases limit with
  | none => exact yields_pure ht ()
  | some l =>
    unfold checkTime
    change Yields (if l.isUp then _ else _) t (if l.isUp then _ else _)
    cases l.isUp with
    | true => exact yields_throw (late (some l))
    | false => exact yields_pure ht ()

theorem yields_attempt {work : Work Unit} {w : Write} {ps : List Policy} (limit : Option TimeLimit)
    (h : Yields work t ((t.write full w ps).map ((), ·))) :
    Yields (work >>= fun _ => checkTime limit) t
      (t.attempt full (late limit) w ps false (limit.any TimeLimit.isUp)) := by
  unfold Tables.attempt
  cases hw : t.write full w ps with
  | error e => exact (hw ▸ h).bindError
  | ok t' => exact (hw ▸ h).bindOk fun ht => yields_checkTime ht limit

/-! ### Opening -/

/-- From a row up to the bound the numbers up to the bound are selected one by one. -/
theorem selects_seq (k m : Nat) : (seq (k + m : Nat)).Selects k
    ((List.range' k (m + 1)).map fun i : Nat => (i : Int)) := by
  induction m generalizing k with
  | zero => exact .last (if_neg (Int.lt_irrefl _))
  | succ m ih =>
    have hbelow : (k : Int) < (k + (m + 1) : Nat) := by omega
    have hrest := ih (k + 1)
    rw [Nat.add_right_comm, Nat.add_assoc] at hrest
    rw [List.range'_succ, List.map_cons]
    exact .next (if_pos hbelow) hrest

/-- The query finds the numbers from `1` up to the bound. Its first row is there before the bound is
looked at, so that there is one for the bound zero as well. -/
theorem rows_seq (n : Nat) :
    (seq n).rows = (List.range (max 1 n)).map fun i : Nat => (i : Int) + 1 := by
  have hselects : (seq n).Selects 1 ((List.range' 1 (max 1 n)).map fun i : Nat => (i : Int)) := by
    cases n with
    | zero => exact .last rfl
    | succ n =>
      have hfrom := selects_seq 1 n
      rwa [Nat.add_comm 1 n, ← Nat.max_eq_right (Nat.le_add_left 1 n)] at hfrom
  rw [hselects.rows_eq, List.range'_eq_map_range, List.map_map]
  refine List.map_congr_left fun i _ => ?_
  rw [Function.comp_apply, Nat.add_comm, Int.natCast_succ]

theorem addGroups_seq (t : Tables) (n : Nat) :
    t.addGroups (seq n).rows = t.provision (max 1 n) := by
  rw [rows_seq, Tables.provision]

/-- What preparing a file makes of its tables. -/
def prepared (n : Nat) (t : Tables) : Except SqliteError (Unit × Tables) :=
  let provide (t : Tables) : Except SqliteError (Unit × Tables) :=
    if maxGroup < n then .error (.invalid "group pool size too large")
    else .ok ((), t.provision (max 1 n))
  match t.versions.head? with
  | none => provide (Tables.createMissing { t with versions := [schemaVersion] })
  | some v =>
    if v ≠ schemaVersion then .error (.versionMismatch s!"unsupported schema version: {v}")
    else provide t

theorem ending_prepare {s : Server} (hidle : s.working = none) (hs : s.Transactional) (n : Nat) :
    Ending .ofRefusal s (prepared n s.tables) ((prepare n).run s) := by
  unfold prepare
  refine ending_transaction (P := fun _ => True) _ hidle hs ?_
  refine (yields_change _ trivial).bindOk fun _ => (yields_query trivial _ _).bindOk fun _ => ?_
  unfold prepared
  dsimp only [id]
  cases s.tables.versions.head? with
  | none =>
    refine (yields_change _ trivial).bindOk fun _ => (yields_change _ trivial).bindOk fun _ => ?_
    split_ifs
    · exact (yields_throw _).bindError
    · rw [← addGroups_seq]
      exact yields_change (P := fun _ => True) _ trivial
  | some v =>
    by_cases hv : v ≠ schemaVersion
    · simp only [if_pos hv]
      exact (yields_throw _).bindError
    · simp only [if_neg hv]
      split_ifs
      · exact (yields_throw _).bindError
      · rw [← addGroups_seq]
        exact yields_change (P := fun _ => True) _ trivial

/-! ### Calls -/

theorem readRow_joinedRow {m : MemoryStore} (hm : m.Named) {r : MemoryRow} (hr : r ∈ m.rows) :
    readRow m.tagLength (joinedRow m r) = .ok (m.policyOf r) := by
  obtain ⟨a, b, ha, hb⟩ := hm r hr
  have hsource : (joinedRow m r).source.guid = some a := ha
  have hdestination : (joinedRow m r).destination.guid = some b := hb
  simp only [readRow, hsource, hdestination, storedPolicy_joinedRow ha hb]
  rfl

/-- A store stands for what its server's tables hold. -/
def standing : Standing SqliteStore where
  stands s m := s.server.Holds s.tagLength m
  valid := Server.Holds.valid
  later s s' := s.server.Precedes s'.server
  refused s s' := s.server.RefusedSince s'.server
  early _ _ := false

variable {s : SqliteStore} {m : MemoryStore}

theorem ended_perform {ideal : Except StoreError.Kind (α × MemoryStore)} {work : Work α}
    (h : (Server.standing s.tagLength fun _ => false).Ended s.server m ideal
      ((work.run s.server).1.mapError (·.toStoreError), (work.run s.server).2)) :
    standing.Ended s m ideal (s.perform work) :=
  h.map (f := fun server => { s with server := server }) (fun _ _ h => h) (fun _ _ h => h)
    fun _ _ => Iff.rfl

theorem ending_readPolicies (hs : s.server.Holds s.tagLength m) (condition : String)
    {rows : Tables → Except String (List JoinedRow)} {found : List JoinedRow} {ps : List Policy}
    (hrows : rows s.server.tables = .ok found)
    (hps : found.mapM (readRow s.tagLength) = .ok ps) :
    Ending .ofRefusal s.server (.ok (ps, s.server.tables))
      ((readPolicies s.tagLength condition rows).run s.server) := by
  have hquery : (withPolicies s.server.tables () >>= fun _ => rows s.server.tables) =
      .ok found := by
    rw [withPolicies_eq hs.hasPolicies, hrows]
    rfl
  refine ending_transaction _ hs.idle hs.transactional
    ((Session.yields_query _ hquery hs.hasPolicies).bindOk fun ht => ?_)
  rw [hps]
  exact yields_pure ht ps

theorem ending_readAll (hs : s.server.Holds s.tagLength m) :
    Ending .ofRefusal s.server (.ok (m.policies, s.server.tables))
      ((readPolicies s.tagLength "" (.ok ·.joined)).run s.server) := by
  refine ending_readPolicies hs "" rfl ?_
  obtain ⟨-, -, -, hrep, hvalid, htag⟩ := hs
  exact htag ▸ hrep.mapM_joined hvalid.groups hvalid.named fun r hr =>
    readRow_joinedRow hvalid.named hr

theorem ending_readByGuids (hs : s.server.Holds s.tagLength m) (sources destinations : List String) :
    Ending .ofRefusal s.server
      (.ok (m.policies.filter fun p =>
        sources.contains p.source.id || destinations.contains p.destination.id, s.server.tables))
      ((readPolicies s.tagLength
        (" WHERE " ++ (endsCondition sources.length destinations.length).text)
        (·.joinedWhere (endsCondition sources.length destinations.length)
          (sources ++ destinations))).run s.server) := by
  refine ending_readPolicies hs _ (joinedWhere_endsCondition _ sources destinations) ?_
  obtain ⟨-, -, -, hrep, hvalid, htag⟩ := hs
  exact htag ▸ hrep.mapM_joinedFor hvalid.groups hvalid.named (fun r hr =>
    readRow_joinedRow hvalid.named hr) sources destinations

theorem ending_readTags (hs : s.server.Holds s.tagLength m) :
    Ending .ofRefusal s.server (.ok (m.tags, s.server.tables))
      ((readTags s.tagLength).run s.server) := by
  refine ending_transaction (P := HasPolicies) _ hs.idle hs.transactional
    ((yields_query hs.hasPolicies _ _).bindOk fun ht => ?_)
  rw [← hs.tagLength, hs.represents.mapM_assigned hs.valid.groups]
  exact yields_pure ht m.tags

theorem ending_check (hs : s.server.Holds s.tagLength m) :
    Ending SqliteError.ofRefusal s.server (.ok ((), s.server.tables))
      ((query "SELECT 1" fun _ => ()).run s.server) :=
  ending_query _ hs.idle rfl

/-- The batch of a write. -/
def batch : Write → List Policy → Work Unit
  | .create, ps => ps.forM createOne
  | .delete, ps => do
    let touched ← ps.mapM deleteOne
    (increasing touched.flatten).forM releaseUnused

theorem yields_batch (ht : HasPolicies t) (w : Write) (ps : List Policy) :
    Yields (batch w ps) t ((t.write full w ps).map ((), ·)) := by
  cases w with
  | create => exact yields_createAll yields_createOne ht
  | delete => exact yields_deleteAll yields_deleteOne yields_releaseUnused ht

theorem write_eq (s : SqliteStore) (w : Write) (ps : List Policy) (limit : Option TimeLimit) :
    store.write w ps limit s =
      s.perform (transaction "BEGIN IMMEDIATE" (batch w ps >>= fun _ => checkTime limit)) := by
  cases w with
  | create => rfl
  | delete =>
    rw [batch, bind_assoc]
    rfl

/-- How a write ends on tables. -/
abbrev attempted (w : Write) (ps : List Policy) (limit : Option TimeLimit) (t : Tables) :
    Except SqliteError (Unit × Tables) :=
  t.attempt full (late limit) w ps false (limit.any TimeLimit.isUp)

theorem ending_write (hs : s.server.Holds s.tagLength m) (w : Write) (ps : List Policy)
    (limit : Option TimeLimit) :
    Ending .ofRefusal s.server (attempted w ps limit s.server.tables)
      ((transaction "BEGIN IMMEDIATE" (batch w ps >>= fun _ => checkTime limit)).run s.server) :=
  ending_transaction "BEGIN IMMEDIATE" hs.idle hs.transactional
    (yields_attempt limit (yields_batch hs.hasPolicies w ps))

theorem realizes : standing.Realizes store where
  all := fun hs => ended_perform ((ending_readAll hs).ended_read hs)
  write := by
    intro s m hs w ps limit
    have hearly : limit.any (standing.early s) = false := by cases limit <;> rfl
    have hkeeps := (yields_attempt limit (yields_batch hs.hasPolicies w ps)).keeps
    rw [hearly, write_eq]
    exact ended_perform ((ending_write hs w ps limit).ended_write hs hkeeps rfl rfl)
  byGuids := fun hs sources destinations =>
    ended_perform ((ending_readByGuids hs sources destinations).ended_read hs)
  tags := fun hs => ended_perform ((ending_readTags hs).ended_read hs)
  check := fun hs => ended_perform ((ending_check hs).ended_read hs)

/-! ### Opened stores -/

theorem prepared_eq_ok {n : Nat} {a : Unit} (h : prepared n t = .ok (a, t'))
    (hpolicies : t.versions = [] ∨ HasPolicies t) : n ≤ maxGroup ∧
      ∃ versions,
        t' = Tables.provision { t with versions := versions, hasPolicies := true } (max 1 n) := by
  unfold prepared at h
  cases hv : t.versions.head? with
  | none =>
    simp only [hv] at h
    split_ifs at h with hn
    cases h
    exact ⟨Nat.not_lt.mp hn, _, rfl⟩
  | some v =>
    have ht : t.hasPolicies = true := hpolicies.resolve_left fun he => by simp [he] at hv
    simp only [hv] at h
    split_ifs at h with hversion hn
    cases h
    refine ⟨Nat.not_lt.mp hn, t.versions, ?_⟩
    rw [← ht]

/-- Opening prepares the tables that the file holds, or leaves them. -/
theorem ending_openOn {server : Server} {l : TagLength} {n : Nat} {r : Except SqliteError Unit}
    (hserver : server.Transactional) (h : openOn l n server = (r, s)) : s.tagLength = l ∧
      Ending .ofRefusal { server with working := none } (prepared n server.tables)
        (r, s.server) := by
  have hend := @ending_prepare { server with working := none } rfl hserver n
  simp only [openOn, Prod.mk.injEq] at h
  obtain ⟨rfl, rfl⟩ := h
  exact ⟨rfl, hend⟩

/-- A store that was opened stands for what was stored before, with room for as many groups. -/
theorem stands_of_openOn {server : Server} {l : TagLength} {n : Nat}
    (hserver : server.Transactional) (hm : m.Valid) (hrep : server.tables.Represents m)
    (hpolicies : server.tables.versions = [] ∨ server.tables.hasPolicies = true)
    (h : openOn l n server = (.ok (), s)) :
    standing.stands s (m.enlarge l (max 1 n)) ∧ server.Precedes s.server := by
  obtain ⟨rfl, hend⟩ := ending_openOn hserver h
  generalize hx : prepared n server.tables = x at hend
  cases hend with
  | committed hpre _ hidle =>
    obtain ⟨-, versions, ht⟩ := prepared_eq_ok hx hpolicies
    have htables := hrep.provision hm versions s.tagLength (max 1 n)
    have hpre' : server.Precedes s.server := ⟨hpre.sent, hpre.refuses, hpre.endsWhenRefused⟩
    exact ⟨⟨hidle, hserver.mono hpre', by rw [ht]; rfl, ht ▸ htables, hm.enlarge _ _, rfl⟩, hpre'⟩

theorem prepared_ok_iff {n : Nat} (hversion : ∀ v, t.versions.head? = some v → v = schemaVersion) :
    (∃ t', prepared n t = .ok ((), t')) ↔ n ≤ maxGroup := by
  have hprovide : ∀ u : Tables, (∃ t', (if maxGroup < n then
      .error (.invalid "group pool size too large") else
      .ok ((), u.provision (max 1 n)) : Except SqliteError (Unit × Tables)) = .ok ((), t')) ↔
        n ≤ maxGroup := by
    intro u
    by_cases hn : maxGroup < n
    · rw [if_pos hn]
      exact iff_of_false (fun ⟨_, h⟩ => nomatch h) (Nat.not_le.mpr hn)
    · rw [if_neg hn]
      exact iff_of_true ⟨_, rfl⟩ (Nat.not_lt.mp hn)
  unfold prepared
  cases hv : t.versions.head? with
  | none => exact hprovide _
  | some v =>
    simp only [hversion v hv, ne_eq, not_true_eq_false, if_false]
    exact hprovide t

/-- A file that is empty or of this version can be opened exactly if its groups can be numbered. -/
theorem openOn_eq_ok {server : Server} {l : TagLength} {n : Nat}
    (hnever : server.refuses = fun _ => none)
    (hversion : ∀ v, server.tables.versions.head? = some v → v = schemaVersion) :
    (openOn l n server).1 = .ok () ↔ n ≤ maxGroup := by
  have hserver : server.Transactional := Or.inr fun _ => by simp [hnever]
  rw [← prepared_ok_iff hversion]
  rcases hopen : openOn l n server with ⟨r, s⟩
  obtain ⟨-, hend⟩ := ending_openOn hserver hopen
  generalize prepared n server.tables = x at hend ⊢
  cases hend with
  | committed => exact iff_of_true rfl ⟨_, rfl⟩
  | abandoned _ _ _ h =>
    refine iff_of_false (fun h => nomatch h) ?_
    rintro ⟨t', rfl⟩
    exact Server.not_refusedSince_of_never (s := { server with working := none }) hnever _
      (h.resolve_left fun h => nomatch h).1

theorem openOn_fresh_eq_ok {l : TagLength} {n : Nat} :
    (openOn l n {}).1 = .ok () ↔ n ≤ maxGroup :=
  openOn_eq_ok rfl fun _ hv => nomatch hv

theorem tables_openOn_fresh (l : TagLength) {n : Nat} (hn : n ≤ maxGroup) :
    (openOn l n {}).2.server.tables = {
      versions := [schemaVersion]
      groups := groupRows { size := max 1 n }
      hasPolicies := true } := by
  have hok : (openOn l n {}).1 = .ok () := openOn_fresh_eq_ok.mpr hn
  have hserver : Server.Transactional {} := Or.inr fun _ => ⟨rfl, rfl⟩
  rcases hopen : openOn l n {} with ⟨r, s⟩
  obtain rfl : r = .ok () := by rwa [hopen] at hok
  obtain ⟨-, hend⟩ := ending_openOn hserver hopen
  generalize hx : prepared n _ = x at hend
  cases hend with
  | committed =>
    have htables : Except.ok ((), Tables.provision
        (.createMissing { versions := [schemaVersion] }) (max 1 n)) = .ok ((), s.server.tables) :=
      (if_neg (Nat.not_lt.mpr hn)).symm.trans hx
    simp only [Except.ok.injEq, Prod.mk.injEq, true_and] at htables
    rw [← htables, Tables.provision_eq (p := { size := 0 }) rfl (GroupPool.valid_empty 0),
      Nat.zero_max]
    rfl

end NetworkPolicy.SqliteStore
