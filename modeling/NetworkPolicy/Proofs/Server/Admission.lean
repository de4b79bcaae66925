import NetworkPolicy.Proofs.Access.Admission
import NetworkPolicy.Proofs.Server.Changes

/-! Requests of callers who are turned away: the answer says nothing but why, and neither the store
nor the directory of applications hears of them. -/
namespace NetworkPolicy

open Http (Request Response)

/-! ### Guarded routes -/

/-- What guards an endpoint that asks who its callers are: the version that its path names, and the
scopes that it allows. -/
def Endpoint.guard? (checking : Bool) : Endpoint → Option (String × AllowedScopes)
  | .whoAmI v | .cleanUp v | .tags v => some (v, .admin)
  | .list v | .create v | .delete v => some (v, .write checking)
  | .uptime | .health | .listInternally => none

section Routes

variable {checking : Bool} {version method : String} {segments : List (List UInt8)} {rt : Route}
  {e : Endpoint}

theorem Route.endpoint?_eq_some (h : rt.endpoint? method = some e) :
    rt.get = some e ∨ rt.post = some e := by
  unfold endpoint? at h
  split at h
  · exact Or.inl h
  · exact Or.inl h
  · exact Or.inr h
  · cases h

/-- All that lies under a version is guarded, with that version. -/
theorem guarded_of_versionedRoute (h : versionedRoute? version segments = some rt)
    (he : rt.endpoint? method = some e) : ∃ allowed, e.guard? checking = some (version, allowed) := by
  have hends := Route.endpoint?_eq_some he
  unfold versionedRoute? at h
  split at h
  · cases h
  · dsimp only at h
    split_ifs at h
    all_goals
      cases h
      rcases hends with hend | hend <;> cases hend <;> exact ⟨_, rfl⟩

end Routes

/-! ### What is told to a caller who is turned away -/

/-- Why a caller is turned away, if they are. -/
def refusal? (version : String) (allowed : AllowedScopes) (header : Option String)
    (vouched : String → Option Caller) : Option Failure :=
  match Version.ofName? version with
  | none => some ⟨406, "check-version", "api version not supported"⟩
  | some _ =>
    match admitted allowed header vouched with
    | .error e => some (.ofAuth e)
    | .ok _ => none

section Refusals

variable {version : String} {allowed : AllowedScopes} {header : Option String}
  {vouched : String → Option Caller} {f : Failure}

theorem Barred.refusal? (h : Barred version allowed header vouched) :
    ∃ f, refusal? version allowed header vouched = some f := by
  unfold NetworkPolicy.refusal?
  rcases h.not_admitted with hversion | ⟨e, he⟩
  · exact ⟨_, by rw [hversion]⟩
  · cases Version.ofName? version with
    | none => exact ⟨_, rfl⟩
    | some v => exact ⟨_, by rw [he]⟩

theorem isClientError_of_refusal (h : refusal? version allowed header vouched = some f) :
    Http.isClientError f.status = true := by
  unfold refusal? at h
  split at h
  · cases h
    rfl
  · split at h
    · rename_i e _
      cases h
      cases e <;> rfl
    · cases h

end Refusals

/-- The response to a caller who is turned away. A path whose version is no text is answered before
anything else is looked at. -/
def refused (method : String) (readable : Bool) (f : Failure) : Response :=
  let response : Response := if readable then f.response else
    { status := 400
      contentType := some "text/plain; charset=utf-8"
      body := "Invalid URL: Invalid UTF-8 in `version`" }
  if method = "HEAD" then { response with body := "" } else response

theorem status_refused (method : String) (readable : Bool) (f : Failure) :
    (refused method readable f).status = if readable then f.status else 400 := by
  unfold refused
  cases readable
  all_goals
    dsimp only
    split <;> rfl

namespace Service

variable {σ κ : Type} {s : Service σ κ} {w w' w₁ : World σ κ} {r : Request} {e : Endpoint}
  {rt : Route} {readable : Bool} {version : String} {allowed : AllowedScopes} {f : Failure}
  {header : Option String}

/-- No store call has been made and no service asked, but for whose token the header shows. -/
structure Unasked (s : Service σ κ) (header : Option String) (w w' : World σ κ) : Prop where
  store : w'.store = w.store
  collaborators : w'.collaborators = w.collaborators ∨ ∃ token, Bearer.Shows header token ∧
    w'.collaborators = (s.collaborators.checkToken token w.collaborators).2

theorem Unasked.quiet (h : s.Unasked header w w₁) (hquiet : w₁.Quiet w') :
    s.Unasked header w w' :=
  ⟨hquiet.store.trans h.store, hquiet.collaborators ▸ h.collaborators⟩

/-- Every guarded endpoint looks at the version and at the caller first. -/
theorem handle_guarded (h : e.guard? s.limits.scopeChecking = some (version, allowed))
    (r : Request) : ∃ next : Version → Caller → Pipeline σ κ Response,
      s.handle e r = selectVersion version >>= fun v =>
        s.identify allowed (r.header? "authorization") >>= next v := by
  cases e with
  | uptime | health | listInternally => cases h
  | whoAmI v | cleanUp v | tags v | list v =>
    cases h
    exact ⟨_, rfl⟩
  | create v | delete v =>
    cases h
    simp only [handle, createPolicies, deletePolicies, acceptBatch, bind_assoc]
    exact ⟨_, rfl⟩

theorem handle_refused (hguard : e.guard? s.limits.scopeChecking = some (version, allowed))
    (hf : refusal? version allowed (r.header? "authorization")
      (s.collaborators.vouched w.collaborators) = some f) :
    ∃ w', (s.handle e r).outcome.run w = (.error f, w') ∧
      s.Unasked (r.header? "authorization") w w' := by
  obtain ⟨next, hhandle⟩ := handle_guarded hguard r
  rw [hhandle]
  unfold refusal? at hf
  cases hversion : Version.ofName? version with
  | none =>
    rw [hversion] at hf
    cases hf
    exact Task.fails_bind ⟨w, selectVersion_error hversion, rfl, Or.inl rfl⟩ _
  | some v =>
    rw [hversion, ← authenticate_eq] at hf
    rw [Task.outcome_bind_ok (selectVersion_ok hversion)]
    have hasks := authenticate_asks s.collaborators allowed (r.header? "authorization")
      w.collaborators
    rcases hauth : authenticate s.collaborators allowed (r.header? "authorization")
      w.collaborators with ⟨e | caller, k⟩
    · rw [hauth] at hf hasks
      cases hf
      obtain ⟨w', hrun, hquiet⟩ := identify_error hauth
      have hunasked : s.Unasked (r.header? "authorization") w { w with collaborators := k } :=
        ⟨rfl, hasks⟩
      exact Task.fails_bind ⟨w', hrun, hunasked.quiet hquiet⟩ _
    · rw [hauth] at hf
      cases hf

/-- The response to a caller who is turned away is determined by the method and the reason. -/
theorem respond_refused (hroute : route .external r.path = .route rt readable)
    (he : rt.endpoint? r.method = some e)
    (hguard : e.guard? s.limits.scopeChecking = some (version, allowed))
    (hf : refusal? version allowed (r.header? "authorization")
      (s.collaborators.vouched w.collaborators) = some f) :
    ∃ w', (s.respond .external r).run w = (refused r.method readable f, w') ∧
      s.Unasked (r.header? "authorization") w w' := by
  unfold respond
  rw [hroute]
  dsimp only
  rw [he]
  cases readable with
  | true =>
    obtain ⟨w₁, hhandle, hunasked⟩ := handle_refused hguard hf
    obtain ⟨w', hanswer, hquiet⟩ := answer_run hhandle
    exact ⟨w', hanswer, hunasked.quiet hquiet⟩
  | false =>
    refine ⟨w, ?_, rfl, Or.inl rfl⟩
    by_cases hhead : r.method = "HEAD"
    · simp only [refused, hhead]
      rfl
    · simp only [refused, hhead]
      rfl

/-- A caller who is turned away learns nothing of the server's state. Two servers that check scopes
alike and are told the same of the token give the same response to the same path, method and header,
whatever their stores, directories and bodies are; and in both no store call is made and no service
asked, but for whose token it is. The stores and the services are any, so also ones that would notice
a call. -/
theorem fail_closed {σ₁ σ₂ κ₁ κ₂ : Type} {s₁ : Service σ₁ κ₁} {s₂ : Service σ₂ κ₂}
    {w₁ : World σ₁ κ₁} {w₂ : World σ₂ κ₂} {r₁ r₂ : Request}
    (hroute : route .external r₁.path = .route rt readable)
    (he : rt.endpoint? r₁.method = some e)
    (hguard : e.guard? s₁.limits.scopeChecking = some (version, allowed))
    (hbarred : Barred version allowed (r₁.header? "authorization")
      (s₁.collaborators.vouched w₁.collaborators))
    (hpath : r₂.path = r₁.path) (hmethod : r₂.method = r₁.method)
    (hheader : r₂.header? "authorization" = r₁.header? "authorization")
    (hchecking : s₂.limits.scopeChecking = s₁.limits.scopeChecking)
    (hvouched : ∀ token, Bearer.Shows (r₁.header? "authorization") token →
      s₁.collaborators.vouched w₁.collaborators token =
        s₂.collaborators.vouched w₂.collaborators token) :
    ∃ response w₁' w₂', (s₁.respond .external r₁).run w₁ = (response, w₁') ∧
      (s₂.respond .external r₂).run w₂ = (response, w₂') ∧
      Http.isClientError response.status = true ∧
      s₁.Unasked (r₁.header? "authorization") w₁ w₁' ∧
      s₂.Unasked (r₂.header? "authorization") w₂ w₂' := by
  obtain ⟨f, hf₁⟩ := hbarred.refusal?
  have hf₂ : refusal? version allowed (r₂.header? "authorization")
      (s₂.collaborators.vouched w₂.collaborators) = some f := by
    rw [hheader, ← hf₁]
    unfold refusal?
    rw [admitted_congr hvouched]
  obtain ⟨w₁', hrun₁, hunasked₁⟩ := respond_refused hroute he hguard hf₁
  obtain ⟨w₂', hrun₂, hunasked₂⟩ :=
    respond_refused (hpath ▸ hroute) (hmethod ▸ he) (hchecking ▸ hguard) hf₂
  rw [hmethod] at hrun₂
  refine ⟨_, w₁', w₂', hrun₁, hrun₂, ?_, hunasked₁, hunasked₂⟩
  rw [status_refused]
  cases readable with
  | true => exact isClientError_of_refusal hf₁
  | false => rfl

/-- A store that counts its calls. -/
def countingStore : PolicyStore Nat where
  all n := (.ok [], n + 1)
  create _ _ n := (.ok (), n + 1)
  delete _ _ n := (.ok (), n + 1)
  byGuids _ _ n := (.ok [], n + 1)
  tags n := (.ok [], n + 1)
  check n := (.ok (), n + 1)

/-- A caller without the scope of administrators asks for the tags, and sends a body with the question
to a server that holds a policy: two servers answer alike, the one asks one question and the other,
whose store counts its calls, counts none. -/
theorem fail_closed_without_scope :
    let p : Policy := ⟨⟨"a", ""⟩, ⟨"b", "", "tcp", ⟨80, 81⟩⟩⟩
    let s₁ := countingDesk ["a"] {}
    let s₂ : Service Nat Unit :=
      { store := countingStore
        collaborators :=
          { checkToken := fun _ k => (.answer (.ok ⟨[Caller.writeScope], "u", "user"⟩), k)
            serviceToken := fun k => (.silence, k)
            appSpaces := fun _ _ k => (.silence, k)
            userSpaces := fun _ _ k => (.silence, k)
            liveApps := fun _ _ k => (.silence, k) }
        limits := { maxPolicies := 1 }
        logger := ⟨"other", .info, []⟩ }
    let w₁ := { morning with store := (OpenStore.store.write .create [p] none morning.store).2 }
    let w₂ : World Nat Unit := { store := 0, collaborators := (), log := .discard }
    let path := Percent.bytes "/networking/v1/external/tags".toList
    let r₁ : Request := { submission [p] with method := "GET", path := path }
    let r₂ : Request := { r₁ with body := .empty }
    Barred "v1" .admin (r₁.header? "authorization") (s₁.collaborators.vouched w₁.collaborators) ∧
      ∃ response w₁' w₂', (s₁.respond .external r₁).run w₁ = (response, w₁') ∧
        (s₂.respond .external r₂).run w₂ = (response, w₂') ∧ response.status = 403 ∧
        w₁'.store = w₁.store ∧ w₁'.collaborators = 1 ∧ w₂'.store = 0 := by
  intro p s₁ s₂ w₁ w₂ path r₁ r₂
  have hheader : r₁.header? "authorization" = some "Bearer t" := by decide +kernel
  have hcarries : Bearer.Carries "Bearer t" "t" :=
    ⟨"Bearer".toList, "t".toList, by decide, by decide, by decide, by decide⟩
  have hbarred : Barred "v1" .admin (r₁.header? "authorization")
      (s₁.collaborators.vouched w₁.collaborators) :=
    .scopeless hheader hcarries rfl rfl (by decide)
  have hroute : route .external r₁.path = .route { get := some (.tags "v1") } := by decide +kernel
  have halike : ∃ response w₁' w₂', (s₁.respond .external r₁).run w₁ = (response, w₁') ∧
      (s₂.respond .external r₂).run w₂ = (response, w₂') ∧
      Http.isClientError response.status = true ∧
      s₁.Unasked (r₁.header? "authorization") w₁ w₁' ∧
      s₂.Unasked (r₂.header? "authorization") w₂ w₂' :=
    fail_closed hroute rfl rfl hbarred rfl rfl rfl rfl fun _ _ => rfl
  obtain ⟨response, w₁', w₂', hrun₁, hrun₂, -, hunasked₁, hunasked₂⟩ := halike
  have hstatus : ((s₁.respond .external r₁).run w₁).1.status = 403 := by decide +kernel
  have hasked : ((s₁.respond .external r₁).run w₁).2.collaborators = 1 := by decide +kernel
  rw [hrun₁] at hstatus hasked
  exact ⟨hbarred, response, w₁', w₂', hrun₁, hrun₂, hstatus, hunasked₁.store, hasked,
    hunasked₂.store⟩

end Service
end NetworkPolicy
