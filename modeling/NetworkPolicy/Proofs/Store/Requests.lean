import NetworkPolicy.Proofs.Store.Courses
import NetworkPolicy.Proofs.Store.Postgres

/-! The requests that a transaction sends to a Postgres server, from the first to the last, and what comes
of it when one of them is refused or the time is up. -/
namespace NetworkPolicy.PostgresStore

open Database Session

variable {α : Type} {s : Server} {limit : Option TimeLimit}

/-! ### Statements of a batch -/

/-- The request is a statement that sets nothing. -/
def IsWork (q : Request) : Prop := ∃ text, q = .statement text ∧ ¬ "SET ".toList <+: text.toList

/-- The computation sends just such statements. -/
abbrev Sends (m : Work α) : Prop := Session.Sends PostgresError.ofRefusal IsWork m

theorem sends_query {text : String} (read : Tables → α) (h : ¬ "SET ".toList <+: text.toList) :
    Sends (query text read) := by
  have htext : IsWork (.statement text) := ⟨text, rfl, h⟩
  exact Session.sends_query text _ htext

theorem sends_change {text : String} (effect : Tables → Tables) (h : ¬ "SET ".toList <+: text.toList) :
    Sends (change text effect) := by
  have htext : IsWork (.statement text) := ⟨text, rfl, h⟩
  unfold change execute
  exact sends_execute text _ htext

theorem sends_lookup (guid : String) (lock : RowLock) : Sends (lookup guid lock) := by
  unfold lookup
  cases lock <;> exact sends_query _ (by decide +kernel)

theorem sends_claimFree (guid : String) (attempts : Nat) : Sends (claimFree guid attempts) := by
  induction attempts with
  | zero => exact sends_throw _
  | succ attempts ih =>
    unfold claimFree
    refine (sends_query _ (by decide +kernel)).bind fun free => ?_
    cases free with
    | none =>
      refine (sends_query _ (by decide +kernel)).bind fun left => ?_
      cases left with
      | false => exact sends_throw _
      | true => exact ih
    | some id =>
      refine (sends_lookup guid .share).bind fun found => ?_
      cases found with
      | some existing => exact sends_pure existing
      | none => exact (sends_change _ (by decide +kernel)).bind fun _ => sends_pure id

theorem sends_claim (guid : String) : Sends (claim guid) := by
  unfold claim
  refine (sends_lookup guid .share).bind fun found => ?_
  cases found with
  | some id => exact sends_pure id
  | none => exact sends_claimFree guid 3

theorem sends_destinationOf (group : Int) (p : Policy) : Sends (destinationOf group p) :=
  sends_query _ (by decide +kernel)

theorem sends_addDestination (group : Int) (p : Policy) : Sends (addDestination group p) := by
  unfold addDestination
  refine (sends_change _ (by decide +kernel)).bind fun _ => (sends_destinationOf group p).bind fun found => ?_
  cases found with
  | some id => exact sends_pure id
  | none => exact sends_throw _

theorem sends_createOne (p : Policy) : Sends (createOne p) :=
  (sends_claim p.source.id).bind fun _ => (sends_claim p.destination.id).bind fun group =>
    (sends_addDestination group p).bind fun _ => sends_change _ (by decide +kernel)

theorem sends_deleteOne (p : Policy) : Sends (deleteOne p) := by
  unfold deleteOne
  refine (sends_lookup p.source.id .update).bind fun source => ?_
  cases source with
  | none => exact sends_pure []
  | some source =>
    refine (sends_lookup p.destination.id .update).bind fun group => ?_
    cases group with
    | none => exact sends_pure []
    | some group =>
      refine (sends_destinationOf group p).bind fun destination => ?_
      cases destination with
      | none => exact sends_pure []
      | some destination =>
        exact (sends_change _ (by decide +kernel)).bind fun _ =>
          (sends_change _ (by decide +kernel)).bind fun _ => sends_pure _

theorem sends_releaseUnused (id : Int) : Sends (releaseUnused id) := by
  unfold releaseUnused
  refine (sends_query _ (by decide +kernel)).bind fun used => ?_
  cases used with
  | true => exact sends_pure ()
  | false => exact sends_change _ (by decide +kernel)

theorem sends_batch (w : Write) (ps : List Policy) : Sends (batch w ps) := by
  cases w with
  | create => exact sends_forM sends_createOne ps
  | delete => exact (sends_mapM sends_deleteOne ps).bind fun _ => sends_forM sends_releaseUnused _

/-! ### Transactions -/

/-- The statement that limits how long those after it may run. -/
def setTimeout (l : TimeLimit) : Request :=
  .statement s!"SET LOCAL statement_timeout = {timeoutMillis l.deadline l.passing}"

/-- The requests that open a transaction, the newest first. -/
def opening : Option TimeLimit → List Request
  | none => [.start "START TRANSACTION"]
  | some l => [setTimeout l, .start "START TRANSACTION"]

/-- The server once the transaction is open. -/
def begun (limit : Option TimeLimit) (s : Server) : Server :=
  { s with sent := opening limit ++ s.sent, working := some s.tables }

/-- The requests of a transaction that has not ended, the newest first. -/
inductive Underway (limit : Option TimeLimit) : List Request → Prop where
  | start : Underway limit (opening none)
  | work {body : List Request} : limit.any isUpAtOpening = false → (∀ q ∈ body, IsWork q) →
      Underway limit (body ++ opening limit)

/-- The work was done in the open transaction and came to `r`; all its requests were accepted. -/
structure Worked (limit : Option TimeLimit) (work : Work α) (s : Server) (r : Except PostgresError α)
    (body : List Request) : Prop where
  unexpired : limit.any isUpAtOpening = false
  statements : ∀ q ∈ body, IsWork q
  admitted : s.Admits (body ++ opening limit)
  run : ∃ done, work.run (begun limit s) = (r, done) ∧ done.sent = body ++ opening limit ++ s.sent

/-- What a transaction comes to, the request that it ends with and those before. -/
inductive Transacted (limit : Option TimeLimit) (work : Work α) (s : Server) :
    Except PostgresError α → Request → List Request → Prop where
  | refused {q : Request} {earlier : List Request} {why : Refusal} : Underway limit (q :: earlier) →
      s.Admits earlier → s.refuses (q :: (earlier ++ s.sent)) = some why →
      Transacted limit work s (.error (.ofRefusal why)) .rollback (q :: earlier)
  | upBefore : limit.any isUpAtOpening = true → s.Admits (opening none) →
      Transacted limit work s (.error (late limit)) .rollback (opening none)
  | failed {e : PostgresError} {body : List Request} : Worked limit work s (.error e) body →
      Transacted limit work s (.error e) .rollback (body ++ opening limit)
  | upAfter {a : α} {body : List Request} : Worked limit work s (.ok a) body →
      limit.any TimeLimit.isUp = true →
      Transacted limit work s (.error (late limit)) .rollback (body ++ opening limit)
  | uncommitted {a : α} {body : List Request} {why : Refusal} : Worked limit work s (.ok a) body →
      limit.any TimeLimit.isUp = false →
      s.refuses (.commit :: (body ++ opening limit ++ s.sent)) = some why →
      Transacted limit work s (.error (.ofRefusal why)) .commit (body ++ opening limit)
  | committed {a : α} {body : List Request} : Worked limit work s (.ok a) body →
      limit.any TimeLimit.isUp = false →
      s.refuses (.commit :: (body ++ opening limit ++ s.sent)) = none →
      Transacted limit work s (.ok a) .commit (body ++ opening limit)

/-- What becomes of a computation when the time is looked at after it. -/
def settle (limit : Option TimeLimit) : Except PostgresError α × Server → Except PostgresError α × Server
  | (.ok a, s) => (if limit.any TimeLimit.isUp then .error (late limit) else .ok a, s)
  | (.error e, s) => (.error e, s)

/-- What becomes of a computation at the end of the transaction. -/
def conclude : Except PostgresError α × Server → Except PostgresError α × Server
  | (.ok a, s) => (commit PostgresError.ofRefusal >>= fun _ => pure a).run s
  | (.error e, s) => (.error e, s.rollback)

theorem settle_none (y : Except PostgresError α × Server) : settle none y = y := by
  rcases y with ⟨_ | _, _⟩ <;> rfl

theorem run_transaction (limit : Option TimeLimit) (work : Work α) (s : Server) :
    (transaction limit work).run s =
      conclude ((start .ofRefusal "START TRANSACTION" refusalText >>= fun _ => timed limit work).run s) := by
  have hrun : transaction limit work = (do
      let a ← orRollback do
        start PostgresError.ofRefusal "START TRANSACTION" refusalText
        timed limit work
      commit PostgresError.ofRefusal
      return a) := rfl
  rw [hrun, run_bind, run_orRollback]
  generalize (start _ _ _ >>= fun _ => _).run s = y
  rcases y with ⟨_ | a, s'⟩ <;> rfl

theorem run_startTransaction (hidle : s.working = none) :
    (start PostgresError.ofRefusal "START TRANSACTION" refusalText).run s =
      match s.refuses (.start "START TRANSACTION" :: s.sent) with
      | some why => (.error (.ofRefusal why), s.after (.start "START TRANSACTION"))
      | none => (.ok (), begun none s) :=
  run_start _ _ hidle

theorem run_setTimeout (l : TimeLimit) (s : Server) :
    (change s!"SET LOCAL statement_timeout = {timeoutMillis l.deadline l.passing}" id).run
        (begun none s) =
      match s.refuses (setTimeout l :: (opening none ++ s.sent)) with
      | some why => (.error (.ofRefusal why), (begun none s).after (setTimeout l))
      | none => (.ok (), begun (some l) s) := by
  rw [change, PostgresStore.execute, Session.execute, run_send]
  change (match s.refuses (setTimeout l :: (opening none ++ s.sent)) with
    | some why => _
    | none => _) = _
  cases s.refuses (setTimeout l :: (opening none ++ s.sent)) <;> rfl

theorem run_checkTime (d : Deadline) (now : Nat) (s : Server) : (checkTime d now).run s =
    (if d.expired now then .error (.deadlineExceeded d.millis) else .ok (), s) := by
  unfold checkTime
  split_ifs <;> rfl

theorem run_settle (l : TimeLimit) (work : Work α) (s : Server) :
    (do
      let a ← work
      checkTime l.deadline l.closing
      return a : Work α).run s = settle (some l) (work.run s) := by
  rw [run_bind]
  rcases work.run s with ⟨e | a, s'⟩
  · rfl
  · dsimp only
    rw [run_bind, run_checkTime]
    unfold settle
    change _ = (if l.deadline.expired l.closing then _ else _, s')
    split_ifs <;> rfl

/-- The transaction and all that it has sent. -/
def Ends (limit : Option TimeLimit) (work : Work α) (s : Server) (y : Except PostgresError α × Server) :
    Prop :=
  ∃ last log, Transacted limit work s y.1 last log ∧ y.2.sent = last :: (log ++ s.sent)

theorem ends_error {work : Work α} {e : PostgresError} {log : List Request} {s' : Server}
    (h : Transacted limit work s (.error e) .rollback log) (hsent : s'.sent = log ++ s.sent) :
    Ends limit work s (conclude (.error e, s')) :=
  ⟨.rollback, log, h, by rw [← hsent]; exact s'.rollback_sent⟩

theorem ends_ok {work : Work α} {a : α} {body : List Request} {s' : Server}
    (h : Worked limit work s (.ok a) body) (hup : limit.any TimeLimit.isUp = false)
    (hsent : s'.sent = body ++ opening limit ++ s.sent) (hrefuses : s'.refuses = s.refuses) :
    Ends limit work s (conclude (.ok a, s')) := by
  have hconclude : conclude (.ok a, s') = (commit PostgresError.ofRefusal >>= fun _ => pure a).run s' :=
    rfl
  rw [hconclude, run_bind, run_commit, hrefuses, hsent]
  cases hcommit : s.refuses (.commit :: (body ++ opening limit ++ s.sent)) with
  | none => exact ⟨_, _, .committed h hup hcommit, by rw [← hsent]; rfl⟩
  | some why =>
    refine ⟨_, _, .uncommitted h hup hcommit, ?_⟩
    rw [← hsent]
    dsimp only [Server.refuseEnd]
    split_ifs <;> rfl

/-- From the open transaction on. -/
theorem ends_begun {work : Work α} (hwork : Sends work) (hunexpired : limit.any isUpAtOpening = false)
    (hopening : s.Admits (opening limit)) :
    Ends limit work s (conclude (settle limit (work.run (begun limit s)))) := by
  have hcourse := hwork (begun limit s)
  have hbegun : (begun limit s).sent = opening limit ++ s.sent := rfl
  generalize hrun : work.run (begun limit s) = y at hcourse ⊢
  cases hcourse with
  | @accepted x done body hsent hrefuses hbody hadmits =>
    rw [hbegun, ← List.append_assoc] at hsent
    have hworked : Worked limit work s x body :=
      ⟨hunexpired, hbody, hadmits.append hopening rfl rfl, done, hrun, hsent⟩
    cases x with
    | error e => exact ends_error (.failed hworked) hsent
    | ok a =>
      unfold settle
      cases hup : limit.any TimeLimit.isUp with
      | true => exact ends_error (.upAfter hworked hup) hsent
      | false => exact ends_ok hworked hup hsent hrefuses
  | @refused done q body why hsent hrefuses hq hbody hadmits hwhy =>
    rw [hbegun, ← List.append_assoc] at hsent hwhy
    have hwork : ∀ q' ∈ q :: body, IsWork q' := List.forall_mem_cons.mpr ⟨hq, hbody⟩
    exact ends_error (.refused (.work hunexpired hwork) (hadmits.append hopening rfl rfl) hwhy) hsent

/-- Every transaction ends in one of the ways, whatever is refused and whenever. -/
theorem ends_transaction {work : Work α} (hwork : Sends work) (limit : Option TimeLimit)
    (hidle : s.working = none) : Ends limit work s ((transaction limit work).run s) := by
  rw [run_transaction, run_bind, run_startTransaction hidle]
  cases hstart : s.refuses (.start "START TRANSACTION" :: s.sent) with
  | some why => exact ends_error (.refused .start s.admits_nil hstart) rfl
  | none =>
    have hstarted : s.Admits (opening none) := Server.admits_cons.mpr ⟨hstart, s.admits_nil⟩
    cases limit with
    | none =>
      have hends : Ends none work s (conclude (settle none (work.run (begun none s)))) :=
        ends_begun hwork rfl hstarted
      rwa [settle_none] at hends
    | some l =>
      dsimp only [timed]
      rw [run_bind, run_checkTime]
      cases hup : l.deadline.expired l.opening with
      | true => exact ends_error (.upBefore hup hstarted) rfl
      | false =>
        rw [if_neg Bool.false_ne_true]
        dsimp only
        rw [run_bind, run_setTimeout]
        cases hset : s.refuses (setTimeout l :: (opening none ++ s.sent)) with
        | some why =>
          have hset' : Underway (some l) ([] ++ opening (some l)) := .work hup (by simp)
          exact ends_error (.refused hset' hstarted hset) rfl
        | none =>
          dsimp only
          rw [run_settle]
          exact ends_begun hwork hup (Server.admits_cons.mpr ⟨hset, hstarted⟩)

end NetworkPolicy.PostgresStore
