import NetworkPolicy.Proofs.Policy.RoundTrip
import NetworkPolicy.Proofs.Server.Answers
import NetworkPolicy.Proofs.Store.Atomicity

/-! Requests that change the policies: they pass one check after the other, the first check that
does not pass answers them, and only a request that passes all of them changes anything. -/
namespace NetworkPolicy

open Http (Request Response)

namespace Change

/-- What a request for the change is sent to. -/
def endpoint : Change → String → Endpoint
  | create => .create
  | delete => .delete

/-- What the change asks of the store. -/
def write : Change → Write
  | create => .create
  | delete => .delete

/-- What is said when the store does not carry the change out. -/
def undone : Change → String
  | create => "database create failed"
  | delete => "database delete failed"

end Change

namespace Service

variable {σ κ : Type} (s : Service σ κ)

/-! ### The checks -/

/-- The path names a version, and the route lets the caller in. -/
inductive Identified (version : String) (header : Option String) (w : World σ κ) :
    Version → Caller → World σ κ → Prop where
  | mk {v : Version} {caller : Caller} {k : κ} : Version.ofName? version = some v →
      authenticate s.collaborators (.write s.limits.scopeChecking) header w.collaborators =
        (.ok caller, k) →
      Identified version header w v caller { w with collaborators := k }

/-- The body is not too long, and a batch. -/
structure Decoded (v : Version) (body : ByteArray) (ps : List Policy) : Prop where
  size : body.size ≤ s.limits.maxBodyBytes
  decode : Body.decode v (Text.ofBytes body) = .ok ps

/-- The batch keeps the rules of its version, and the caller may write it. -/
inductive Accepted (version : String) (header : Option String) (body : ByteArray) (w : World σ κ) :
    Version → Caller → List Policy → World σ κ → Prop where
  | mk {v : Version} {caller : Caller} {ps : List Policy} {w₁ : World σ κ} {k : κ} :
      s.Identified version header w v caller w₁ → s.Decoded v body ps →
      Body.validate v ps = .ok () →
      (mayWrite s.collaborators caller ps).outcome w₁.collaborators = (.ok true, k) →
      Accepted version header body w v caller ps { w₁ with collaborators := k }

/-- All checks have passed; for a creation, also that there is room for the batch. -/
inductive Cleared (version : String) (header : Option String) (body : ByteArray) (w : World σ κ) :
    Change → Version → Caller → List Policy → World σ κ → Prop where
  | create {v : Version} {caller : Caller} {ps stored : List Policy} {w₁ w₂ : World σ κ} :
      s.Accepted version header body w v caller ps w₁ → s.all.run w₁ = (.ok stored, w₂) →
      stored.length + ps.length ≤ s.limits.maxPolicies →
      Cleared version header body w .create v caller ps w₂
  | delete {v : Version} {caller : Caller} {ps : List Policy} {w₁ : World σ κ} :
      s.Accepted version header body w v caller ps w₁ →
      Cleared version header body w .delete v caller ps w₁

/-- The checks that a change of either kind may not pass, each after those before it: the failure
there, and the world after the check. -/
inductive Rejected (c : Change) (version : String) (header : Option String) (body : ByteArray)
    (w : World σ κ) : Failure → World σ κ → Prop where
  | version : Version.ofName? version = none →
      Rejected c version header body w ⟨406, "check-version", "api version not supported"⟩ w
  | caller {v : Version} {e : AuthError} {k : κ} : Version.ofName? version = some v →
      authenticate s.collaborators (.write s.limits.scopeChecking) header w.collaborators =
        (.error e, k) →
      Rejected c version header body w (.ofAuth e) { w with collaborators := k }
  | size {v : Version} {caller : Caller} {w₁ : World σ κ} :
      s.Identified version header w v caller w₁ → s.limits.maxBodyBytes < body.size →
      Rejected c version header body w ⟨400, c.context, c.unread⟩ w₁
  | decoding {v : Version} {caller : Caller} {w₁ : World σ κ} {e : DecodeError} :
      s.Identified version header w v caller w₁ → body.size ≤ s.limits.maxBodyBytes →
      Body.decode v (Text.ofBytes body) = .error e →
      Rejected c version header body w
        ⟨400, c.context, "could not map request to store policies: " ++ e.message⟩ w₁
  | validation {v : Version} {caller : Caller} {w₁ : World σ κ} {ps : List Policy}
      {e : Policy.Invalid} : s.Identified version header w v caller w₁ → s.Decoded v body ps →
      Body.validate v ps = .error e →
      Rejected c version header body w ⟨400, c.context, e.message⟩ w₁
  | denied {v : Version} {caller : Caller} {w₁ : World σ κ} {ps : List Policy} {k : κ} :
      s.Identified version header w v caller w₁ → s.Decoded v body ps →
      Body.validate v ps = .ok () →
      (mayWrite s.collaborators caller ps).outcome w₁.collaborators = (.ok false, k) →
      Rejected c version header body w
        ⟨403, c.context, "one or more applications cannot be found or accessed"⟩
        { w₁ with collaborators := k }
  | unguarded {v : Version} {caller : Caller} {w₁ : World σ κ} {ps : List Policy} {k : κ}
      {e : ServiceError} : s.Identified version header w v caller w₁ → s.Decoded v body ps →
      Body.validate v ps = .ok () →
      (mayWrite s.collaborators caller ps).outcome w₁.collaborators = (.error e, k) →
      Rejected c version header body w ⟨500, c.context, "check access failed"⟩
        { w₁ with collaborators := k }

/-- The points at which a change fails: a check that both kinds have, the room for a creation, or
the store. -/
inductive ChangeFails (c : Change) (version : String) (header : Option String) (body : ByteArray)
    (w : World σ κ) : Failure → World σ κ → Prop where
  | rejected {f : Failure} {w₁ : World σ κ} : s.Rejected c version header body w f w₁ →
      ChangeFails c version header body w f w₁
  | quota {v : Version} {caller : Caller} {ps stored : List Policy} {w₁ w₂ : World σ κ} :
      c = .create → s.Accepted version header body w v caller ps w₁ →
      s.all.run w₁ = (.ok stored, w₂) → s.limits.maxPolicies < stored.length + ps.length →
      ChangeFails c version header body w ⟨403, c.context, "policy quota exceeded"⟩ w₂
  | uncounted {v : Version} {caller : Caller} {ps : List Policy} {e : StoreError}
      {w₁ w₂ : World σ κ} : c = .create → s.Accepted version header body w v caller ps w₁ →
      s.all.run w₁ = (.error e, w₂) →
      ChangeFails c version header body w ⟨500, c.context, "check quota failed"⟩ w₂
  | write {v : Version} {caller : Caller} {ps : List Policy} {e : StoreError}
      {w₁ w₂ : World σ κ} : s.Cleared version header body w c v caller ps w₁ →
      (s.write c.write ps).run w₁ = (.error e, w₂) →
      ChangeFails c version header body w ⟨500, c.context, c.undone⟩ w₂

variable {s} {c : Change} {v : Version} {version : String} {header : Option String}
  {body : ByteArray} {caller : Caller} {ps : List Policy} {f : Failure} {w w' w₁ w₂ : World σ κ}

/-! ### Runs of the checks -/

theorem selectVersion_ok (h : Version.ofName? version = some v) :
    (selectVersion version : Pipeline σ κ Version).outcome.run w = (.ok v, w) := by
  rw [selectVersion, h]
  rfl

theorem selectVersion_error (h : Version.ofName? version = none) :
    (selectVersion version : Pipeline σ κ Version).outcome.run w =
      (.error ⟨406, "check-version", "api version not supported"⟩, w) := by
  rw [selectVersion, h]
  rfl

theorem authenticate_run {allowed : AllowedScopes} {r : Except AuthError Caller} {k : κ}
    (h : authenticate s.collaborators allowed header w.collaborators = (r, k)) :
    StateT.run (fun w => let (r, k) := authenticate s.collaborators allowed header w.collaborators
      (r, { w with collaborators := k }) : Effect σ κ _) w = (r, { w with collaborators := k }) := by
  simp only [StateT.run, h]

theorem identify_ok {allowed : AllowedScopes} {k : κ}
    (h : authenticate s.collaborators allowed header w.collaborators = (.ok caller, k)) :
    (s.identify allowed header).outcome.run w = (.ok caller, { w with collaborators := k }) :=
  require_ok (authenticate_run h)

theorem identify_error {allowed : AllowedScopes} {e : AuthError} {k : κ}
    (h : authenticate s.collaborators allowed header w.collaborators = (.error e, k)) :
    ∃ w', (s.identify allowed header).outcome.run w = (.error (.ofAuth e), w') ∧
      World.Quiet { w with collaborators := k } w' :=
  require_error (authenticate_run h)

theorem readBody_ok (h : body.size ≤ s.limits.maxBodyBytes) :
    (s.readBody c body).outcome.run w = (.ok body, w) := by
  rw [readBody, if_neg (Nat.not_lt.mpr h)]
  rfl

theorem readBody_error (h : s.limits.maxBodyBytes < body.size) :
    ∃ w', (s.readBody c body).outcome.run w = (.error ⟨400, c.context, c.unread⟩, w') ∧
      w.Quiet w' := by
  rw [readBody, if_pos h]
  exact ⟨_, rfl, rfl, rfl⟩

theorem checkAccess_ok {k : κ}
    (h : (mayWrite s.collaborators caller ps).outcome w.collaborators = (.ok true, k)) :
    (s.checkAccess c caller ps).outcome.run w = (.ok (), { w with collaborators := k }) := by
  rw [checkAccess, Task.outcome_bind_ok (require_ok (inquire_run h))]
  rfl

theorem checkAccess_denied {k : κ}
    (h : (mayWrite s.collaborators caller ps).outcome w.collaborators = (.ok false, k)) :
    ∃ w', (s.checkAccess c caller ps).outcome.run w = (.error
        ⟨403, c.context, "one or more applications cannot be found or accessed"⟩, w') ∧
      World.Quiet { w with collaborators := k } w' := by
  rw [checkAccess, Task.outcome_bind_ok (require_ok (inquire_run h))]
  exact ⟨_, rfl, rfl, rfl⟩

theorem checkAccess_error {e : ServiceError} {k : κ}
    (h : (mayWrite s.collaborators caller ps).outcome w.collaborators = (.error e, k)) :
    ∃ w', (s.checkAccess c caller ps).outcome.run w =
        (.error ⟨500, c.context, "check access failed"⟩, w') ∧
      World.Quiet { w with collaborators := k } w' := by
  rw [checkAccess]
  exact Task.fails_bind (require_error (inquire_run h)) _

theorem checkQuota_ok {stored : List Policy} (h : s.all.run w = (.ok stored, w'))
    (hroom : stored.length + ps.length ≤ s.limits.maxPolicies) :
    (s.checkQuota ps).outcome.run w = (.ok (), w') := by
  have hwithin : withinQuota s.limits.maxPolicies stored.length ps.length = true := by
    simpa [withinQuota] using hroom
  rw [checkQuota, Task.outcome_bind_ok (require_ok h), hwithin]
  rfl

theorem checkQuota_exceeded {stored : List Policy} (h : s.all.run w = (.ok stored, w'))
    (hfull : s.limits.maxPolicies < stored.length + ps.length) :
    ∃ w'', (s.checkQuota ps).outcome.run w =
        (.error ⟨403, Change.create.context, "policy quota exceeded"⟩, w'') ∧ w'.Quiet w'' := by
  have hwithin : withinQuota s.limits.maxPolicies stored.length ps.length = false := by
    simpa [withinQuota] using hfull
  rw [checkQuota, Task.outcome_bind_ok (require_ok h), hwithin]
  exact ⟨_, rfl, rfl, rfl⟩

theorem checkQuota_error {e : StoreError} (h : s.all.run w = (.error e, w')) :
    ∃ w'', (s.checkQuota ps).outcome.run w =
        (.error ⟨500, Change.create.context, "check quota failed"⟩, w'') ∧ w'.Quiet w'' := by
  rw [checkQuota]
  exact Task.fails_bind (require_error h) _

/-! ### Runs of a change -/

theorem Identified.run {α : Type} (h : s.Identified version header w v caller w₁)
    (next : Version → Caller → Pipeline σ κ α) :
    (selectVersion version >>= fun v => s.identify (.write s.limits.scopeChecking) header >>=
      fun caller => next v caller).outcome.run w = (next v caller).outcome.run w₁ := by
  obtain ⟨hversion, hcaller⟩ := h
  rw [Task.outcome_bind_ok (selectVersion_ok hversion), Task.outcome_bind_ok (identify_ok hcaller)]

theorem Decoded.run {α : Type} (h : s.Decoded v body ps) (c : Change)
    (next : List Policy → Pipeline σ κ α) :
    (s.readBody c body >>= fun body => s.decodeBatch c v body >>= next).outcome.run w =
      (next ps).outcome.run w := by
  have hdecode : (s.decodeBatch c v body).outcome.run w = (.ok ps, w) :=
    require_ok (congrArg (·, w) h.decode)
  rw [Task.outcome_bind_ok (readBody_ok h.size), Task.outcome_bind_ok hdecode]

theorem checkBatch_ok (h : Body.validate v ps = .ok ()) :
    (s.checkBatch c v ps).outcome.run w = (.ok (), w) :=
  require_ok (congrArg (·, w) h)

theorem Accepted.run (h : s.Accepted version header body w v caller ps w₁) (c : Change) :
    (s.acceptBatch c version header body).outcome.run w = (.ok (caller, ps), w₁) := by
  obtain ⟨hidentified, hbody, hvalid, haccess⟩ := h
  rw [acceptBatch, hidentified.run, hbody.run, Task.outcome_bind_ok (checkBatch_ok hvalid),
    Task.outcome_bind_ok (checkAccess_ok haccess)]
  rfl

theorem Rejected.run (h : s.Rejected c version header body w f w₁) :
    ∃ w', (s.acceptBatch c version header body).outcome.run w = (.error f, w') ∧ w₁.Quiet w' := by
  rw [acceptBatch]
  cases h with
  | version hversion =>
    exact Task.fails_bind ⟨w, selectVersion_error hversion, rfl, rfl⟩ _
  | caller hversion hcaller =>
    rw [Task.outcome_bind_ok (selectVersion_ok hversion)]
    exact Task.fails_bind (identify_error hcaller) _
  | size hidentified hlong =>
    rw [hidentified.run]
    exact Task.fails_bind (readBody_error hlong) _
  | decoding hidentified hsize hdecode =>
    rw [hidentified.run, Task.outcome_bind_ok (readBody_ok hsize)]
    exact Task.fails_bind (require_error (congrArg (·, _) hdecode)) _
  | validation hidentified hbody hinvalid =>
    rw [hidentified.run, hbody.run]
    exact Task.fails_bind (require_error (congrArg (·, _) hinvalid)) _
  | denied hidentified hbody hvalid haccess =>
    rw [hidentified.run, hbody.run, Task.outcome_bind_ok (checkBatch_ok hvalid)]
    exact Task.fails_bind (checkAccess_denied haccess) _
  | unguarded hidentified hbody hvalid haccess =>
    rw [hidentified.run, hbody.run, Task.outcome_bind_ok (checkBatch_ok hvalid)]
    exact Task.fails_bind (checkAccess_error haccess) _

/-- The handling of a request for a change. -/
def change (s : Service σ κ) : Change → String → Option String → ByteArray → Pipeline σ κ Response
  | .create => s.createPolicies
  | .delete => s.deletePolicies

theorem ChangeFails.run (h : s.ChangeFails c version header body w f w₁) :
    ∃ w', (s.change c version header body).outcome.run w = (.error f, w') ∧ w₁.Quiet w' := by
  cases h with
  | rejected h =>
    cases c with
    | create => exact Task.fails_bind h.run _
    | delete => exact Task.fails_bind h.run _
  | quota hc h hread hfull =>
    subst hc
    rw [change, createPolicies, Task.outcome_bind_ok (h.run .create)]
    dsimp only
    rw [createAccepted]
    exact Task.fails_bind (checkQuota_exceeded hread hfull) _
  | uncounted hc h hread =>
    subst hc
    rw [change, createPolicies, Task.outcome_bind_ok (h.run .create)]
    dsimp only
    rw [createAccepted]
    exact Task.fails_bind (checkQuota_error hread) _
  | write h hwrite =>
    cases h with
    | create h hread hroom =>
      rw [change, createPolicies, Task.outcome_bind_ok (h.run .create)]
      dsimp only
      rw [createAccepted, Task.outcome_bind_ok (checkQuota_ok hread hroom)]
      exact Task.fails_bind (require_error hwrite) _
    | delete h =>
      rw [change, deletePolicies, Task.outcome_bind_ok (h.run .delete)]
      exact Task.fails_bind (require_error hwrite) _

theorem Cleared.run (h : s.Cleared version header body w c v caller ps w₁)
    (hwrite : (s.write c.write ps).run w₁ = (.ok (), w₂)) :
    ∃ w', (s.change c version header body).outcome.run w = (.ok .done, w') ∧
      w₂.Quiet w' := by
  cases h with
  | create h hread hroom =>
    have hcreate : (s.create ps).run w₁ = (.ok (), w₂) := hwrite
    rw [change, createPolicies, Task.outcome_bind_ok (h.run .create)]
    have hstored : (s.storeBatch ps).outcome.run w₁ = (.ok (), w₂) := require_ok hcreate
    dsimp only
    rw [createAccepted, Task.outcome_bind_ok (checkQuota_ok hread hroom),
      Task.outcome_bind_ok hstored]
    exact ⟨_, rfl, rfl, rfl⟩
  | delete h =>
    have hdelete : (s.delete ps).run w₁ = (.ok (), w₂) := hwrite
    rw [change, deletePolicies, Task.outcome_bind_ok (h.run .delete)]
    dsimp only
    rw [Task.outcome_bind_ok (require_ok hdelete)]
    exact ⟨_, rfl, rfl, rfl⟩

/-! ### Every request passes all checks or fails at one -/

theorem exists_identified (s : Service σ κ) (c : Change) (version : String)
    (header : Option String) (body : ByteArray) (w : World σ κ) :
    (∃ v caller w₁, s.Identified version header w v caller w₁) ∨
      ∃ f w₁, s.Rejected c version header body w f w₁ := by
  cases hversion : Version.ofName? version with
  | none => exact Or.inr ⟨_, _, .version hversion⟩
  | some v =>
    rcases hcaller : authenticate s.collaborators (.write s.limits.scopeChecking) header
      w.collaborators with ⟨e | caller, k⟩
    · exact Or.inr ⟨_, _, .caller hversion hcaller⟩
    · exact Or.inl ⟨v, caller, _, .mk hversion hcaller⟩

theorem exists_accepted (s : Service σ κ) (c : Change) (version : String) (header : Option String)
    (body : ByteArray) (w : World σ κ) :
    (∃ v caller ps w₁, s.Accepted version header body w v caller ps w₁) ∨
      ∃ f w₁, s.Rejected c version header body w f w₁ := by
  rcases s.exists_identified c version header body w with ⟨v, caller, w₁, h⟩ | hrejected
  · by_cases hlong : s.limits.maxBodyBytes < body.size
    · exact Or.inr ⟨_, _, .size h hlong⟩
    · have hsize : body.size ≤ s.limits.maxBodyBytes := Nat.not_lt.mp hlong
      cases hdecode : Body.decode v (Text.ofBytes body) with
      | error e => exact Or.inr ⟨_, _, .decoding h hsize hdecode⟩
      | ok ps =>
        cases hvalid : Body.validate v ps with
        | error e => exact Or.inr ⟨_, _, .validation h ⟨hsize, hdecode⟩ hvalid⟩
        | ok _ =>
          rcases haccess : (mayWrite s.collaborators caller ps).outcome w₁.collaborators with
            ⟨e | allowed, k⟩
          · exact Or.inr ⟨_, _, .unguarded h ⟨hsize, hdecode⟩ hvalid haccess⟩
          · cases allowed with
            | false => exact Or.inr ⟨_, _, .denied h ⟨hsize, hdecode⟩ hvalid haccess⟩
            | true => exact Or.inl ⟨v, caller, ps, _, .mk h ⟨hsize, hdecode⟩ hvalid haccess⟩
  · exact Or.inr hrejected

theorem exists_cleared (s : Service σ κ) (c : Change) (version : String) (header : Option String)
    (body : ByteArray) (w : World σ κ) :
    (∃ v caller ps w₁, s.Cleared version header body w c v caller ps w₁) ∨
      ∃ f w₁, s.ChangeFails c version header body w f w₁ := by
  rcases s.exists_accepted c version header body w with ⟨v, caller, ps, w₁, h⟩ | ⟨f, w₁, h⟩
  · cases c with
    | create =>
      rcases hread : s.all.run w₁ with ⟨e | stored, w₂⟩
      · exact Or.inr ⟨_, _, .uncounted rfl h hread⟩
      · by_cases hroom : stored.length + ps.length ≤ s.limits.maxPolicies
        · exact Or.inl ⟨v, caller, ps, w₂, .create h hread hroom⟩
        · exact Or.inr ⟨_, _, .quota rfl h hread (Nat.lt_of_not_le hroom)⟩
    | delete => exact Or.inl ⟨v, caller, ps, w₁, .delete h⟩
  · exact Or.inr ⟨f, w₁, .rejected h⟩

/-- A request that fails nowhere passes all checks, and the store carries its batch out. -/
theorem exists_written (hno : ∀ f w₁, ¬ s.ChangeFails c version header body w f w₁) :
    ∃ v caller ps w₁ w₂, s.Cleared version header body w c v caller ps w₁ ∧
      (s.write c.write ps).run w₁ = (.ok (), w₂) := by
  obtain ⟨v, caller, ps, w₁, h⟩ := (s.exists_cleared c version header body w).resolve_right
    fun ⟨f, w₁, h⟩ => hno f w₁ h
  rcases hwrite : (s.write c.write ps).run w₁ with ⟨e | u, w₂⟩
  · exact absurd (.write h hwrite) (hno _ _)
  · exact ⟨v, caller, ps, w₁, w₂, h, hwrite⟩

/-! ### What becomes of the store -/

variable {S : Standing σ} {m : MemoryStore}

theorem Identified.store_eq (h : s.Identified version header w v caller w₁) :
    w₁.store = w.store := by
  obtain ⟨-, -⟩ := h
  rfl

theorem Accepted.store_eq (h : s.Accepted version header body w v caller ps w₁) :
    w₁.store = w.store := by
  obtain ⟨h, -, -, -⟩ := h
  exact h.store_eq

theorem Rejected.store_eq (h : s.Rejected c version header body w f w₁) : w₁.store = w.store := by
  cases h with
  | version | caller => rfl
  | size h | decoding h | validation h | denied h | unguarded h => exact h.store_eq

theorem Cleared.stands (h : s.Cleared version header body w c v caller ps w₁)
    (hr : S.Realizes s.store) (hs : S.stands w.store m) : S.stands w₁.store m := by
  cases h with
  | create h hread _ =>
    have hs' := h.store_eq ▸ hs
    exact (read_ended hs' (hr.all hs') hread).1
  | delete h => exact h.store_eq ▸ hs

theorem ChangeFails.stands (h : s.ChangeFails c version header body w f w₁)
    (hr : S.Realizes s.store) (hs : S.stands w.store m) : S.stands w₁.store m := by
  cases h with
  | rejected h => exact h.store_eq ▸ hs
  | quota _ h hread _ =>
    have hs' := h.store_eq ▸ hs
    exact (read_ended hs' (hr.all hs') hread).1
  | uncounted _ h hread =>
    have hs' := h.store_eq ▸ hs
    exact (read_ended hs' (hr.all hs') hread).1
  | write h hwrite => exact write_run hr (h.stands hr hs) hwrite

/-! ### Answers -/

theorem handle_endpoint (s : Service σ κ) (c : Change) (version : String) (r : Request) :
    s.handle (c.endpoint version) r = s.change c version (r.header? "authorization") r.body := by
  cases c <;> rfl

end Service

namespace Service

variable {κ : Type} {s : Service OpenStore κ} {w : World OpenStore κ}

/-- A server whose other services count the questions. Each application is in a space of its own, and
the caller is a developer in the spaces `own`. -/
def countingDesk (own : List String) (limits : Limits) : Service OpenStore Nat where
  store := OpenStore.store
  collaborators :=
    { checkToken := fun _ k => (.answer (.ok ⟨[Caller.writeScope], "u", "user"⟩), k + 1)
      serviceToken := fun k => (.answer (.ok "token"), k + 1)
      appSpaces := fun _ apps k => (.answer (.ok (apps.map fun a => (a, a))), k + 1)
      userSpaces := fun _ _ k => (.answer (.ok own), k + 1)
      liveApps := fun _ apps k => (.answer (.ok apps), k + 1) }
  limits := limits
  logger := ⟨"policy-server", .info, []⟩

/-- A world with an empty store in memory. -/
def morning : World OpenStore Nat where
  store := .memory (.empty .oneByte 3)
  collaborators := 0
  log := .discard

/-- A request that submits a batch. -/
def submission (ps : List Policy) : Request where
  method := "POST"
  path := Percent.bytes "/networking/v1/external/policies".toList
  headers := [("authorization", "Bearer t".toUTF8.data.toList)]
  body := (Body.encode .v1 ps).toUTF8

end Service
end NetworkPolicy
