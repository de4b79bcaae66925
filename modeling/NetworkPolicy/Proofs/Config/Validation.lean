import NetworkPolicy.Config.Validation
import NetworkPolicy.Proofs.Lists

/-! What settings hold that are not refused, section by section, and that no others are taken. -/
namespace NetworkPolicy.Config

/-! ### Checks -/

theorem refuseIf_eq_ok {c : Prop} [Decidable c] {reason : Invalid} :
    refuseIf c reason = .ok () ↔ ¬c := by
  unfold refuseIf
  split <;> simp [*]

theorem checks_eq_ok {x : Except Invalid Unit} {y : Unit → Except Invalid Unit} :
    (x >>= y) = .ok () ↔ x = .ok () ∧ y () = .ok () := by
  rw [bind_eq_ok]
  constructor
  · rintro ⟨⟨⟩, hx, hy⟩
    exact ⟨hx, hy⟩
  · rintro ⟨hx, hy⟩
    exact ⟨(), hx, hy⟩

/-- The text is an absolute URL of one of the two schemes. -/
def IsWebUrl (url : String) : Prop :=
  ∃ u, Url.parse url.toList = .ok u ∧ (u.scheme = "http".toList ∨ u.scheme = "https".toList)

theorem validateUrl_eq_ok {setting url : String} :
    validateUrl setting url = .ok () ↔ IsWebUrl url := by
  unfold validateUrl IsWebUrl
  cases hurl : Url.parse url.toList with
  | error e => simp
  | ok u =>
    simp only [refuseIf_eq_ok, Except.ok.injEq, exists_eq_left']
    constructor
    · intro h
      by_contra hscheme
      exact h (not_or.mp hscheme)
    · intro h hneither
      exact h.elim hneither.1 hneither.2

/-! ### Sections -/

structure Listener.Accepted (s : Listener) : Prop where
  named : Text.isBlankText s.host = false
  host : (∃ a, Address.ofChars? s.host.toList = some a) ∨ s.host = "localhost"
  port : s.port ≠ 0
  internalPort : ∀ p, s.internalPort = some p → p ≠ 0 ∧ p ≠ s.port
  body : 0 < s.maxBodyBytes

theorem Listener.validate_eq_ok {s : Listener} : s.validate = .ok () ↔ s.Accepted := by
  have hhost : ¬(Address.ofChars? s.host.toList = none ∧ s.host ≠ "localhost") ↔
      (∃ a, Address.ofChars? s.host.toList = some a) ∨ s.host = "localhost" := by
    rw [not_and_or, not_not, ← Option.ne_none_iff_exists']
  simp only [validate, checks_eq_ok, refuseIf_eq_ok, hhost, Bool.not_eq_true]
  constructor
  · rintro ⟨hnamed, haddress, hport, hinternal, hsame, hbody⟩
    refine ⟨hnamed, haddress, hport, ?_, Nat.pos_of_ne_zero hbody⟩
    rintro p hp
    constructor
    · rintro rfl
      exact hinternal hp
    · rintro rfl
      exact hsame hp
  · intro h
    have hinternal : s.internalPort ≠ some 0 := fun hp => (h.internalPort 0 hp).1 rfl
    have hsame : s.internalPort ≠ some s.port := fun hp => (h.internalPort _ hp).2 rfl
    exact ⟨h.named, h.host, h.port, hinternal, hsame, Nat.ne_of_gt h.body⟩

structure Logging.Accepted (l : Logging) : Prop where
  path : l.sink = .file → ∃ p, l.path = some p

theorem Logging.validate_eq_ok {l : Logging} : l.validate = .ok () ↔ l.Accepted := by
  simp only [validate, refuseIf_eq_ok, not_and, ← ne_eq, Option.ne_none_iff_exists']
  exact ⟨fun h => ⟨h⟩, fun h => h.path⟩

structure TokenService.Accepted (t : TokenService) : Prop where
  url : IsWebUrl t.url
  port : t.port ≠ 0
  client : Text.isBlankText t.client = false
  timeout : 0 < t.timeoutMillis

theorem TokenService.validate_eq_ok {t : TokenService} : t.validate = .ok () ↔ t.Accepted := by
  simp only [validate, checks_eq_ok, refuseIf_eq_ok, validateUrl_eq_ok, Bool.not_eq_true]
  constructor
  · rintro ⟨hurl, hport, hclient, htimeout⟩
    exact ⟨hurl, hport, hclient, Nat.pos_of_ne_zero htimeout⟩
  · intro h
    exact ⟨h.url, h.port, h.client, Nat.ne_of_gt h.timeout⟩

structure Directory.Accepted (d : Directory) : Prop where
  url : IsWebUrl d.url
  timeout : 0 < d.timeoutMillis

theorem Directory.validate_eq_ok {d : Directory} : d.validate = .ok () ↔ d.Accepted := by
  simp only [validate, checks_eq_ok, refuseIf_eq_ok, validateUrl_eq_ok]
  constructor
  · rintro ⟨hurl, htimeout⟩
    exact ⟨hurl, Nat.pos_of_ne_zero htimeout⟩
  · intro h
    exact ⟨h.url, Nat.ne_of_gt h.timeout⟩

/-- Each kind of store has needs of its own. -/
structure Database.Accepted (d : Database) : Prop where
  timeout : 1 ≤ d.timeoutSeconds
  path : d.backend = .sqlite → ∃ p, d.path = some p ∧ p ≠ ""
  connection : d.backend = .postgres →
    ∃ text, d.connection = some text ∧ Text.isBlankText text = false
  connections : d.backend = .postgres → 1 ≤ d.maxConnections

theorem Database.validate_eq_ok {d : Database} : d.validate = .ok () ↔ d.Accepted := by
  have hpath : d.path ≠ none ∧ d.path ≠ some "" ↔ ∃ p, d.path = some p ∧ p ≠ "" := by
    cases d.path <;> simp
  have hconnection : ¬d.connection.all Text.isBlankText = true ↔
      ∃ text, d.connection = some text ∧ Text.isBlankText text = false := by
    cases d.connection <;> simp
  unfold validate
  cases hbackend : d.backend with
  | memory =>
    simp only [checks_eq_ok, refuseIf_eq_ok]
    constructor
    · intro h
      exact ⟨Nat.pos_of_ne_zero h.1, by simp [hbackend], by simp [hbackend], by simp [hbackend]⟩
    · intro h
      exact ⟨Nat.ne_of_gt h.timeout, rfl⟩
  | sqlite =>
    simp only [checks_eq_ok, refuseIf_eq_ok, ← ne_eq, hpath]
    constructor
    · intro h
      exact ⟨Nat.pos_of_ne_zero h.1, fun _ => h.2, by simp [hbackend], by simp [hbackend]⟩
    · intro h
      exact ⟨Nat.ne_of_gt h.timeout, h.path hbackend⟩
  | postgres =>
    simp only [checks_eq_ok, refuseIf_eq_ok, hconnection]
    constructor
    · rintro ⟨htimeout, htext, hconnections⟩
      exact ⟨Nat.pos_of_ne_zero htimeout, by simp [hbackend], fun _ => htext,
        fun _ => Nat.pos_of_ne_zero hconnections⟩
    · intro h
      exact ⟨Nat.ne_of_gt h.timeout, h.connection hbackend,
        Nat.ne_of_gt (h.connections hbackend)⟩

structure Policies.Accepted (p : Policies) : Prop where
  tagLength : ∃ l, TagLength.ofBytes? p.tagLength = some l
  limit : 1 ≤ p.maxPolicies
  cleanup : 1 ≤ p.cleanupSeconds
  batch : 1 ≤ p.batchSize

theorem Policies.validate_eq_ok {p : Policies} : p.validate = .ok () ↔ p.Accepted := by
  simp only [validate, checks_eq_ok, refuseIf_eq_ok, ← ne_eq, Option.ne_none_iff_exists']
  constructor
  · rintro ⟨hlength, hlimit, hcleanup, hbatch⟩
    exact ⟨hlength, Nat.pos_of_ne_zero hlimit, Nat.pos_of_ne_zero hcleanup,
      Nat.pos_of_ne_zero hbatch⟩
  · intro h
    exact ⟨h.tagLength, Nat.ne_of_gt h.limit, Nat.ne_of_gt h.cleanup, Nat.ne_of_gt h.batch⟩

structure Metrics.Accepted (m : Metrics) : Prop where
  emit : 1 ≤ m.emitSeconds

theorem Metrics.validate_eq_ok {m : Metrics} : m.validate = .ok () ↔ m.Accepted := by
  rw [validate, refuseIf_eq_ok]
  exact ⟨fun h => ⟨Nat.pos_of_ne_zero h⟩, fun h => Nat.ne_of_gt h.emit⟩

/-! ### All settings -/

structure Accepted (c : Config) : Prop where
  server : c.server.Accepted
  logging : c.logging.Accepted
  tokens : c.tokens.Accepted
  directory : c.directory.Accepted
  database : c.database.Accepted
  policy : c.policy.Accepted
  metrics : c.metrics.Accepted

/-- The settings that are not refused are those whose sections all are as they must be. -/
theorem validate_eq_ok {c : Config} : c.validate = .ok () ↔ c.Accepted := by
  simp only [validate, checks_eq_ok, Listener.validate_eq_ok, Logging.validate_eq_ok,
    TokenService.validate_eq_ok, Directory.validate_eq_ok, Database.validate_eq_ok,
    Policies.validate_eq_ok, Metrics.validate_eq_ok]
  constructor
  · rintro ⟨hserver, hlogging, htokens, hdirectory, hdatabase, hpolicy, hmetrics⟩
    exact ⟨hserver, hlogging, htokens, hdirectory, hdatabase, hpolicy, hmetrics⟩
  · intro h
    exact ⟨h.server, h.logging, h.tokens, h.directory, h.database, h.policy, h.metrics⟩

end NetworkPolicy.Config
