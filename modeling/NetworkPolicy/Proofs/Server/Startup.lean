import NetworkPolicy.Proofs.Config.Validation
import NetworkPolicy.Proofs.Policy.Tag
import NetworkPolicy.Server.Startup

/-! What putting the server together relies on: settings that were not refused name a store that can
be opened, and no wait, batch or limit of theirs is zero. -/
namespace NetworkPolicy

variable {c : Config} {l : TagLength}

/-- What the parts of the server rely on in numbers. Times are in the units of the settings; the
deadline of a store call and the timeout of a connection are in milliseconds. -/
structure Config.Runnable (c : Config) : Prop where
  port : c.server.port ≠ 0
  internalPort : ∀ p, c.server.internalPort = some p → p ≠ 0 ∧ p ≠ c.server.port
  body : 0 < c.server.maxBodyBytes
  deadline : 0 < c.database.storeDeadlineMillis
  margin : c.database.storeDeadlineMillis + 500 = c.database.connectMillis
  limit : 0 < c.policy.maxPolicies
  cleanup : 0 < c.policy.cleanupSeconds
  batch : 0 < c.policy.batchSize
  emit : 0 < c.metrics.emitSeconds

theorem Config.Database.Accepted.deadline {d : Config.Database} (h : d.Accepted) :
    0 < d.storeDeadlineMillis ∧ d.storeDeadlineMillis + 500 = d.connectMillis := by
  have hseconds : 1 ≤ d.timeoutSeconds := h.timeout
  unfold storeDeadlineMillis connectMillis
  omega

theorem Config.Accepted.runnable (h : c.Accepted) : c.Runnable where
  port := h.server.port
  internalPort := h.server.internalPort
  body := h.server.body
  deadline := h.database.deadline.1
  margin := h.database.deadline.2
  limit := h.policy.limit
  cleanup := h.policy.cleanup
  batch := h.policy.batch
  emit := h.metrics.emit

theorem Config.Policies.tagLength?_eq_ok {p : Config.Policies} :
    p.tagLength? = .ok l ↔ TagLength.ofBytes? p.tagLength = some l := by
  unfold tagLength?
  cases TagLength.ofBytes? p.tagLength <;> simp

namespace Startup

theorem clampedMillis_pos {n : Nat} (h : 0 < n) : 0 < Config.Database.clampedMillis n := by
  have hmax : 0 < Nat.pow 2 64 - 1 := by decide
  exact lt_min h hmax

/-- What a Postgres store relies on in its settings. -/
structure Servable (p : PostgresConfig) (l : TagLength) : Prop where
  accepted : PostgresStore.checkConfig p = .ok l
  groups : PostgresStore.poolSize p l = l.poolSize
  connectTimeout : 0 < p.connectTimeout
  /-- Zero would be no limit. -/
  statementTimeout : 0 < p.statementTimeout

theorem servable {d : Config.Database} (h : d.Accepted) (hbackend : d.backend = .postgres)
    (connection : String) (l : TagLength) : Servable (d.postgres connection l) l := by
  have hconnections : d.maxConnections ≠ 0 := Nat.ne_of_gt (h.connections hbackend)
  have hmargin := h.deadline
  have hlength : TagLength.ofBytes? l.bytes = some l := TagLength.ofBytes?_eq_some.mpr rfl
  constructor
  · simp [PostgresStore.checkConfig, Config.Database.postgres, hlength, hconnections]
  · rfl
  · exact clampedMillis_pos (by omega)
  · exact clampedMillis_pos hmargin.1

theorem openBackend_ne_config (h : c.Accepted) (l : TagLength) (m : Machine) (f : Files)
    (cause : String) : openBackend c l m f ≠ .error (.config cause) := by
  intro herror
  cases hbackend : c.database.backend with
  | memory => simp [openBackend, hbackend] at herror
  | sqlite =>
    obtain ⟨path, hpath, -⟩ := h.database.path hbackend
    simp only [openBackend, hbackend, hpath] at herror
    rcases hfile : SqliteStore.openFile f path l l.poolSize with ⟨e | s, f'⟩ <;>
      rw [hfile] at herror <;> cases herror
  | postgres =>
    obtain ⟨connection, hconnection, -⟩ := h.database.connection hbackend
    simp only [openBackend, hbackend, hconnection] at herror
    cases hserver : (c.database.postgres connection l).connect m.reach <;>
      rw [hserver] at herror <;> cases herror

/-- With settings that were not refused, a store that cannot be opened is at fault itself, or the
thread that opens it. -/
theorem openStore_ne_config (h : c.Accepted) (m : Machine) (f : Files) (cause : String) :
    openStore c m f ≠ .error (.config cause) := by
  obtain ⟨l, hl⟩ := h.policy.tagLength
  have hlength : c.policy.tagLength? = .ok l := Config.Policies.tagLength?_eq_ok.mpr hl
  intro herror
  rw [openStore, hlength] at herror
  cases hopening : m.opening with
  | finished =>
    rw [hopening] at herror
    exact openBackend_ne_config h l m f cause herror
  | lost =>
    rw [hopening] at herror
    cases herror
  | late =>
    rw [hopening] at herror
    cases herror

/-- Settings that are not refused cover what starting relies on: no setting that the store needs is
missing or out of its range, whatever the store is, and no wait, batch or limit is zero. -/
theorem accepted_covers_start (c : Config) (h : c.validate = .ok ()) :
    c.Runnable ∧ ∃ l, c.policy.tagLength? = .ok l ∧ 0 < l.poolSize ∧ l.poolSize < 2 ^ 63 ∧
      (∀ m f cause, openStore c m f ≠ .error (.config cause)) ∧
      (c.database.backend = .postgres →
        ∃ connection, c.database.connection = some connection ∧
          Servable (c.database.postgres connection l) l) := by
  have haccepted := Config.validate_eq_ok.mp h
  obtain ⟨l, hl⟩ := haccepted.policy.tagLength
  have hlength : c.policy.tagLength? = .ok l := Config.Policies.tagLength?_eq_ok.mpr hl
  refine ⟨haccepted.runnable, l, hlength, l.poolSize_bounds.1, l.poolSize_bounds.2,
    openStore_ne_config haccepted, ?_⟩
  intro hbackend
  obtain ⟨connection, hconnection, -⟩ := haccepted.database.connection hbackend
  exact ⟨connection, hconnection, servable haccepted.database hbackend connection l⟩

/-- Settings for a Postgres store with the shortest timeout, one connection and wide tags. -/
def tightSettings : Config where
  server := { port := 1, internalPort := some 2, maxBodyBytes := 1 }
  database :=
    { backend := .postgres, path := none, connection := some "host=db", timeoutSeconds := 1,
      maxConnections := 1 }
  policy := { tagLength := 2, maxPolicies := 1, cleanupSeconds := 1, batchSize := 1 }
  metrics := { emitSeconds := 1 }

theorem accepted_covers_start_tight :
    tightSettings.validate = .ok () ∧ tightSettings.Runnable ∧
      tightSettings.database.storeDeadlineMillis = 500 ∧
      ∃ connection l, tightSettings.policy.tagLength? = .ok l ∧
        Servable (tightSettings.database.postgres connection l) l := by
  have h : tightSettings.validate = .ok () := by decide +kernel
  obtain ⟨hrunnable, l, hlength, -, -, -, hpostgres⟩ := accepted_covers_start tightSettings h
  obtain ⟨connection, -, hservable⟩ := hpostgres rfl
  exact ⟨h, hrunnable, rfl, connection, l, hlength, hservable⟩

end Startup
end NetworkPolicy
