import NetworkPolicy.Proofs.Store.Requests
import NetworkPolicy.Proofs.Store.Soundness
import NetworkPolicy.Proofs.Store.Vacancies

/-! The protocol that every write to a Postgres server follows: when it commits, how long its statements may
run, and what it reports. -/
namespace NetworkPolicy

namespace Database.Server

/-- No transaction is open, the tables exist, and no two groups have the same id. -/
structure Ready (s : Server) : Prop where
  idle : s.working = none
  hasPolicies : HasPolicies s.tables
  numbered : s.tables.Numbered

/-- So are all servers that stand for a store in memory. -/
theorem Holds.ready {s : Server} {l : TagLength} {m : MemoryStore} (h : s.Holds l m) : s.Ready :=
  ⟨h.idle, h.hasPolicies, (h.represents.sound h.valid).groupIds⟩

end Database.Server

namespace PostgresStore

open Database Session

variable {α : Type} {s : Server} {limit : Option TimeLimit}

/-! ### What a transaction sends and reports -/

theorem Underway.ne_end {log : List Request} (h : Underway limit log) :
    ∀ q ∈ log, q ≠ .commit ∧ q ≠ .rollback := by
  have hopening : ∀ limit, ∀ q ∈ opening limit, q ≠ .commit ∧ q ≠ .rollback := by
    intro limit
    cases limit <;> simp [opening, setTimeout]
  cases h with
  | start => exact hopening none
  | work _ hbody =>
    refine List.forall_mem_append.mpr ⟨fun q hq => ?_, hopening limit⟩
    obtain ⟨text, rfl, -⟩ := hbody q hq
    simp

/-- The time that statements may run is set by one request at most, the second. -/
theorem Underway.setTimeout {log : List Request} (h : Underway limit log) {text : String}
    (hmem : .statement text ∈ log) (hset : "SET ".toList <+: text.toList) :
    ∃ l, limit = some l ∧ .statement text = PostgresStore.setTimeout l := by
  cases h with
  | start => simp [opening] at hmem
  | work _ hbody =>
    rcases List.mem_append.mp hmem with hmem | hmem
    · obtain ⟨text', heq, hnot⟩ := hbody _ hmem
      cases heq
      exact absurd hset hnot
    · cases limit with
      | none => simp [opening] at hmem
      | some l => exact ⟨l, rfl, by simpa [opening] using hmem⟩

theorem not_isWork_setTimeout (l : TimeLimit) : ¬ IsWork (setTimeout l) := by
  intro ⟨text, heq, hnot⟩
  have hbegins : "SET ".toList <+: "SET LOCAL statement_timeout = ".toList := by decide +kernel
  cases heq
  rw [String.toList_append] at hnot
  exact hnot (hbegins.trans (List.prefix_append _ _))

theorem not_isWork_opening {q : Request} (hq : q ∈ opening limit) : ¬ IsWork q := by
  have hstart : ¬ IsWork (.start "START TRANSACTION") := fun ⟨_, heq, _⟩ => nomatch heq
  cases limit with
  | none =>
    obtain rfl := List.mem_singleton.mp hq
    exact hstart
  | some l =>
    rcases List.mem_cons.mp hq with rfl | hq
    · exact not_isWork_setTimeout l
    · obtain rfl := List.mem_singleton.mp hq
      exact hstart

/-- No statement of the work is sent before the transaction is open and the time that it may run is set. -/
theorem Underway.opening_suffix {log : List Request} (h : Underway limit log) {q : Request}
    {earlier : List Request} (hsuffix : q :: earlier <:+ log) (hq : IsWork q) :
    limit.any isUpAtOpening = false ∧ opening limit <:+ earlier := by
  cases h with
  | start =>
    have hmem : q ∈ opening none := hsuffix.subset List.mem_cons_self
    exact absurd hq (not_isWork_opening hmem)
  | @work body hunexpired =>
    refine ⟨hunexpired, ?_⟩
    rcases List.suffix_or_suffix_of_suffix hsuffix (List.suffix_append body (opening limit)) with h | h
    · exact absurd hq (not_isWork_opening (h.subset List.mem_cons_self))
    · rcases List.suffix_cons_iff.mp h with heq | h
      · exact absurd hq (not_isWork_opening (heq ▸ List.mem_cons_self))
      · exact h

section Transacted

variable {work : Work α} {r : Except PostgresError α} {last : Request} {log : List Request}

theorem Transacted.underway (h : Transacted limit work s r last log) : Underway limit log := by
  cases h with
  | refused hlog => exact hlog
  | upBefore => exact .start
  | failed h => exact .work h.unexpired h.statements
  | upAfter h => exact .work h.unexpired h.statements
  | uncommitted h => exact .work h.unexpired h.statements
  | committed h => exact .work h.unexpired h.statements

theorem Transacted.last_eq (h : Transacted limit work s r last log) :
    last = .rollback ∨ last = .commit := by
  cases h <;> simp

/-- All requests before the last were accepted, or just the latest of them was refused and says why. -/
theorem Transacted.admitted_or_refused (h : Transacted limit work s r last log) :
    s.Admits log ∨ ∃ q earlier why, log = q :: earlier ∧ s.Admits earlier ∧
      s.refuses (q :: (earlier ++ s.sent)) = some why ∧ r = .error (.ofRefusal why) := by
  cases h with
  | refused _ hadmits hwhy => exact Or.inr ⟨_, _, _, rfl, hadmits, hwhy, rfl⟩
  | upBefore _ hadmits => exact Or.inl hadmits
  | failed h => exact Or.inl h.admitted
  | upAfter h => exact Or.inl h.admitted
  | uncommitted h => exact Or.inl h.admitted
  | committed h => exact Or.inl h.admitted

theorem Transacted.commit_refused (h : Transacted limit work s r .commit log) {why : Refusal}
    (hwhy : s.refuses (.commit :: (log ++ s.sent)) = some why) : r = .error (.ofRefusal why) := by
  cases h with
  | uncommitted _ _ hcommit =>
    rw [hcommit] at hwhy
    cases hwhy
    rfl
  | committed _ _ hcommit =>
    rw [hcommit] at hwhy
    cases hwhy

/-- A request that is refused says why, unless it gives the transaction up. -/
theorem Transacted.eq_refusal (h : Transacted limit work s r last log) {q : Request}
    {earlier : List Request} {why : Refusal} (hsuffix : q :: earlier <:+ last :: log)
    (hq : q ≠ .rollback) (hwhy : s.refuses (q :: (earlier ++ s.sent)) = some why) :
    r = .error (.ofRefusal why) := by
  have hnot : ∀ {accepted}, s.Admits accepted → ¬ q :: earlier <:+ accepted := by
    intro accepted hadmits hsuffix
    rw [hadmits q earlier hsuffix] at hwhy
    cases hwhy
  rcases List.suffix_cons_iff.mp hsuffix with heq | hlog
  · obtain ⟨rfl, rfl⟩ := List.cons.inj heq
    obtain rfl := h.last_eq.resolve_left hq
    exact h.commit_refused hwhy
  · rcases h.admitted_or_refused with hadmits | ⟨q', earlier', why', rfl, hadmits, hwhy', hr⟩
    · exact absurd hlog (hnot hadmits)
    · rcases List.suffix_cons_iff.mp hlog with heq | hlog
      · obtain ⟨rfl, rfl⟩ := List.cons.inj heq
        rw [hwhy'] at hwhy
        cases hwhy
        exact hr
      · exact absurd hlog (hnot hadmits)

/-- A commit is sent last, and only for work that was done in time. -/
theorem Transacted.of_commit (h : Transacted limit work s r last log) (hmem : .commit ∈ last :: log) :
    last = .commit ∧ ∃ body a, log = body ++ opening limit ∧ Worked limit work s (.ok a) body ∧
      limit.any TimeLimit.isUp = false := by
  have hlast : last = .commit := by
    rcases List.mem_cons.mp hmem with heq | hmem
    · exact heq.symm
    · exact absurd rfl (h.underway.ne_end _ hmem).1
  subst hlast
  cases h with
  | uncommitted h hup => exact ⟨rfl, _, _, rfl, h, hup⟩
  | committed h hup => exact ⟨rfl, _, _, rfl, h, hup⟩

theorem Transacted.ok_iff (h : Transacted limit work s r last log) :
    (∃ a, r = .ok a) ↔ .commit ∈ last :: log ∧ s.refuses (last :: (log ++ s.sent)) = none := by
  constructor
  · intro ⟨a, hr⟩
    subst hr
    cases h with
    | committed _ _ hcommit => exact ⟨List.mem_cons_self, hcommit⟩
  · intro ⟨hmem, haccepted⟩
    obtain ⟨rfl, -⟩ := h.of_commit hmem
    cases h with
    | uncommitted _ _ hwhy =>
      rw [hwhy] at haccepted
      cases haccepted
    | committed => exact ⟨_, rfl⟩

end Transacted

/-! ### Times -/

theorem one_le_timeoutMillis (d : Deadline) (now : Nat) : 1 ≤ timeoutMillis d now :=
  Nat.le_max_left 1 _

theorem remaining_after_le {start now budget : Nat} (h : start ≤ now) :
    (Deadline.after start budget).remaining now ≤ budget := by
  unfold Deadline.after Deadline.remaining
  split_ifs
  · change start + budget - now ≤ budget
    omega
  · exact le_rfl

/-- No statement may run longer than the whole write, unless that has less than a millisecond. -/
theorem timeoutMillis_le {start now budget : Nat} (h : start ≤ now) :
    timeoutMillis (.after start budget) now ≤ max 1 (Deadline.after start budget).millis :=
  max_le_max le_rfl (Nat.div_le_div_right (remaining_after_le h))

/-! ### Writes -/

/-- The work of a write comes to what the batch comes to on the tables. -/
theorem Worked.eq_write {w : Write} {ps : List Policy} {r : Except PostgresError Unit}
    {body : List Request} (h : Worked limit (batch w ps) s r body) (hpolicies : HasPolicies s.tables) :
    r = (s.tables.write full w ps).map fun _ => () := by
  obtain ⟨done, hrun, hsent⟩ := h.run
  have hbegun : s.Precedes (begun limit s) := ⟨List.suffix_append _ _, rfl, rfl⟩
  have hq : ¬ (begun limit s).RefusedSince done := fun hr =>
    h.admitted.not_refusedSince hsent (hbegun.refusedSince hr)
  have hout := (yields_batch hpolicies w ps).outcome (begun limit s) rfl
  rw [hrun] at hout
  generalize hx : (s.tables.write full w ps).map ((), ·) = x at hout
  cases hout with
  | ok _ _ _ _ =>
    obtain ⟨t, ht, -⟩ := map_eq_ok.mp hx
    rw [ht]
    rfl
  | error =>
    cases ht : s.tables.write full w ps with
    | ok t => simp [ht, Except.map] at hx
    | error e =>
      simp only [ht, Except.map, Except.error.injEq] at hx
      rw [hx]
      rfl
  | refused _ hr => exact absurd hr hq

/-- Where nothing is refused but perhaps to give the transaction up, a write comes to what its batch comes
to between the looks at the clock. -/
theorem Transacted.eq_attempted {w : Write} {ps : List Policy} {r : Except PostgresError Unit}
    {last : Request} {log : List Request} (h : Transacted limit (batch w ps) s r last log)
    (hpolicies : HasPolicies s.tables)
    (hnone : ∀ q earlier, q :: earlier <:+ last :: log → q ≠ .rollback →
      s.refuses (q :: (earlier ++ s.sent)) = none) :
    r = (attempted w ps limit s.tables).map (·.1) := by
  cases h with
  | @refused q earlier why hlog _ hwhy =>
    have hq := (hlog.ne_end q List.mem_cons_self).2
    rw [hnone q earlier (List.suffix_cons _ _) hq] at hwhy
    cases hwhy
  | upBefore hup =>
    rw [attempted, Tables.attempt, if_pos hup]
    rfl
  | failed h =>
    have hwrite := h.eq_write hpolicies
    cases ht : s.tables.write full w ps with
    | error e =>
      rw [ht] at hwrite
      simp only [attempted, Tables.attempt, h.unexpired, ht]
      exact hwrite
    | ok t =>
      rw [ht] at hwrite
      cases hwrite
  | upAfter h hup =>
    obtain ⟨t, ht, -⟩ := map_eq_ok.mp (h.eq_write hpolicies).symm
    simp only [attempted, Tables.attempt, h.unexpired, ht, hup]
    rfl
  | uncommitted _ _ hwhy =>
    rw [hnone _ _ List.suffix_rfl (by simp)] at hwhy
    cases hwhy
  | committed h hup =>
    obtain ⟨t, ht, -⟩ := map_eq_ok.mp (h.eq_write hpolicies).symm
    simp only [attempted, Tables.attempt, h.unexpired, ht, hup]
    rfl

/-- What a write reports of which nothing is refused: the first thing that is in its way. -/
structure ReportsFirst (w : Write) (ps : List Policy) (limit : Option TimeLimit) (t : Tables)
    (r : Except StoreError Unit) : Prop where
  upBefore : ∀ l, limit = some l → l.deadline.expired l.opening = true →
    r = .error (.timeout l.deadline.millis)
  crowded : limit.any isUpAtOpening = false → t.Exceeds w ps →
    r = .error (.capacity "no free rows in groups table")
  upAfter : limit.any isUpAtOpening = false → ¬ t.Exceeds w ps →
    ∀ l, limit = some l → l.deadline.expired l.closing = true → r = .error (.timeout l.deadline.millis)
  done : limit.any isUpAtOpening = false → ¬ t.Exceeds w ps → limit.any TimeLimit.isUp = false →
    r = .ok ()

theorem reportsFirst_attempted {t : Tables} (ht : t.Numbered) (w : Write) (ps : List Policy)
    (limit : Option TimeLimit) (statementTimeout : Nat) :
    ReportsFirst w ps limit t
      (((attempted w ps limit t).map (·.1)).mapError (·.toStoreError statementTimeout)) where
  upBefore := by
    intro l hl hup
    subst hl
    have hearly : (some l).any isUpAtOpening = true := hup
    simp only [attempted, Tables.attempt, hearly]
    rfl
  crowded := by
    intro hearly hexceeds
    have hfull : t.write full w ps = .error full :=
      (Tables.write_eq_error_iff ht).mpr ⟨rfl, hexceeds⟩
    simp only [attempted, Tables.attempt, hearly, hfull]
    rfl
  upAfter := by
    intro hearly hroom l hl hup
    subst hl
    obtain ⟨t', hwrite⟩ := Tables.write_of_not_exceeds ht full hroom
    have hlate : (some l).any TimeLimit.isUp = true := hup
    simp only [attempted, Tables.attempt, hearly, hwrite, hlate]
    rfl
  done := by
    intro hearly hroom hup
    obtain ⟨t', hwrite⟩ := Tables.write_of_not_exceeds ht full hroom
    simp only [attempted, Tables.attempt, hearly, hwrite, hup]
    rfl

/-- What a write may send, the newest request first, and what it may report. -/
structure FollowsProtocol (s : PostgresStore) (w : Write) (ps : List Policy) (limit : Option TimeLimit)
    (sent : List Request) (r : Except StoreError Unit) : Prop where
  /-- Before the commit the whole batch was carried out without an error, and in time. -/
  commit : .commit ∈ sent → ∃ body, sent = .commit :: (body ++ opening limit) ∧
    Worked limit (batch w ps) s.server (.ok ()) body ∧ limit.any TimeLimit.isUp = false
  /-- Success is reported of what was committed. -/
  success : r = .ok () ↔ .commit ∈ sent ∧ s.server.refuses (sent ++ s.server.sent) = none
  /-- The batch is begun in time, once the transaction is open and its statements are limited. -/
  limited : ∀ q earlier, q :: earlier <:+ sent → IsWork q →
    limit.any isUpAtOpening = false ∧ opening limit <:+ earlier
  /-- Statements are limited to the budget, and never to zero, which would be no limit. -/
  statementTimeout : ∀ text, .statement text ∈ sent → "SET ".toList <+: text.toList →
    ∃ l millis, limit = some l ∧ text = s!"SET LOCAL statement_timeout = {millis}" ∧ 1 ≤ millis ∧
      ∀ start budget, l.deadline = .after start budget → start ≤ l.passing →
        millis ≤ max 1 l.deadline.millis
  /-- A request that is refused is reported. -/
  refusal : ∀ q earlier why, q :: earlier <:+ sent → q ≠ .rollback →
    s.server.refuses (q :: (earlier ++ s.server.sent)) = some why →
    r = .error (if why.cancelled then .timeout s.statementTimeout else .db why.text)
  /-- A refusal to give the transaction up is not reported. -/
  unrefused : (∀ q earlier, q :: earlier <:+ sent → q ≠ .rollback →
      s.server.refuses (q :: (earlier ++ s.server.sent)) = none) →
    ReportsFirst w ps limit s.server.tables r

/-- Every write follows the protocol, whatever the server refuses and whenever, and at whatever times the
clock is looked at. -/
theorem write_follows_protocol {s : PostgresStore} (hs : s.server.Ready) (w : Write) (ps : List Policy)
    (limit : Option TimeLimit) {r : Except StoreError Unit} {s' : PostgresStore}
    (hwrite : store.write w ps limit s = (r, s')) :
    ∃ sent, s'.server.sent = sent ++ s.server.sent ∧ FollowsProtocol s w ps limit sent r := by
  rw [write_eq] at hwrite
  have hr : ((transaction limit (batch w ps)).run s.server).1.mapError
      (·.toStoreError s.statementTimeout) = r := congrArg Prod.fst hwrite
  have hs' : ((transaction limit (batch w ps)).run s.server).2 = s'.server :=
    congrArg (·.2.server) hwrite
  obtain ⟨last, log, h, hsent⟩ := ends_transaction (sends_batch w ps) limit hs.idle
  rw [hs'] at hsent
  generalize ((transaction limit (batch w ps)).run s.server).1 = x at h hr
  have hend := h.last_eq
  refine ⟨last :: log, hsent, fun hmem => ?_, ?_, fun q earlier hsuffix hq => ?_,
    fun text hmem hset => ?_, fun q earlier why hsuffix hq hwhy => ?_, fun hnone => ?_⟩
  · obtain ⟨rfl, body, a, rfl, hworked, hup⟩ := h.of_commit hmem
    exact ⟨body, rfl, hworked, hup⟩
  · have hok : r = .ok () ↔ ∃ a, x = .ok a := by
      rw [← hr]
      cases x <;> simp [Except.mapError]
    exact hok.trans h.ok_iff
  · refine h.underway.opening_suffix ?_ hq
    refine (List.suffix_cons_iff.mp hsuffix).resolve_left fun heq => ?_
    obtain ⟨text, rfl, -⟩ := hq
    obtain ⟨rfl, -⟩ := List.cons.inj heq
    simp at hend
  · have hlog : .statement text ∈ log := by
      refine (List.mem_cons.mp hmem).resolve_left fun heq => ?_
      subst heq
      simp at hend
    obtain ⟨l, hl, heq⟩ := h.underway.setTimeout hlog hset
    refine ⟨l, timeoutMillis l.deadline l.passing, hl, Request.statement.inj heq,
      one_le_timeoutMillis _ _, fun start budget hdeadline hstart => ?_⟩
    rw [hdeadline]
    exact timeoutMillis_le hstart
  · rw [← hr, h.eq_refusal hsuffix hq hwhy]
    unfold PostgresError.ofRefusal
    cases why.cancelled <;> rfl
  · rw [← hr, h.eq_attempted hs.hasPolicies hnone]
    exact reportsFirst_attempted hs.numbered w ps limit s.statementTimeout

/-- The fourth request is cancelled: it is reported with the time that statements have by themselves,
not with the millisecond that was left for them. -/
theorem write_follows_protocol_cancelled :
    let s : PostgresStore := ⟨.oneByte, 4500, {
      tables := { groups := [⟨1, none⟩, ⟨2, none⟩], hasPolicies := true }
      refuses := fun log => if log.length = 4 then some ⟨true, "db error"⟩ else none }⟩
    let p : Policy := ⟨⟨"a", ""⟩, ⟨"b", "", "tcp", ⟨80, 81⟩⟩⟩
    let limit : Option TimeLimit := some ⟨.after 0 2500000, 0, 1000000, 2000000⟩
    let q : Request :=
      .statement "SELECT id FROM groups WHERE guid IS NULL ORDER BY id LIMIT 1 FOR UPDATE"
    let earlier : List Request := [.statement "SELECT id FROM groups WHERE guid = $1 FOR SHARE",
      .statement "SET LOCAL statement_timeout = 1", .start "START TRANSACTION"]
    s.server.Ready ∧ ∃ s', store.write .create [p] limit s = (.error (.timeout 4500), s') ∧
      s'.server.sent = .rollback :: q :: earlier := by
  intro s p limit q earlier
  have hnumbered : s.server.tables.Numbered := by
    unfold Database.Tables.Numbered
    decide
  have hs : s.server.Ready := ⟨rfl, rfl, hnumbered⟩
  rcases hwrite : store.write .create [p] limit s with ⟨r, s'⟩
  obtain ⟨sent, hsent, hprotocol⟩ := write_follows_protocol hs .create [p] limit hwrite
  have hs' : s'.server.sent = .rollback :: q :: earlier := by
    obtain rfl : (store.write .create [p] limit s).2 = s' := by rw [hwrite]
    decide +kernel
  have hall : .rollback :: q :: earlier = sent := by
    rw [← hs', hsent]
    exact List.append_nil sent
  have hr := hprotocol.refusal q earlier ⟨true, "db error"⟩ (hall ▸ List.suffix_cons _ _) (by simp [q])
    rfl
  exact ⟨hs, s', Prod.ext hr rfl, hs'⟩

end PostgresStore
end NetworkPolicy
