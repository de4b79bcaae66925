import NetworkPolicy.Proofs.Server.Steps
import NetworkPolicy.Server.Routes

/-! How the handling of a request becomes its answer: samples are taken, and neither the store nor
another service sees any of it. -/
namespace NetworkPolicy.Service

open Http (Request Response)

variable {σ κ : Type} {s : Service σ κ} {e : Endpoint} {r : Request} {w w₁ : World σ κ}

theorem sampleRequest_quiet (s : Service σ κ) (e : Endpoint) (nanos : Nat) (response : Response)
    (w : World σ κ) : w.Quiet ((s.sampleRequest e nanos response).run w).2 := by
  have hduration := s.sample_quiet (.duration e.sampleName nanos) w
  rw [sampleRequest]
  by_cases hfailed :
      (Http.isClientError response.status || Http.isServerError response.status) = true
  · rw [if_pos hfailed]
    exact hduration.trans (s.sample_quiet (.counter "http_error") _)
  · rw [if_neg hfailed]
    exact hduration

/-- What the outcome of a request's handling is answered with. -/
def responseOf : Except Failure Response → Response
  | .ok response => response
  | .error f => f.response

theorem answer_run {x : Except Failure Response} (h : (s.handle e r).outcome.run w = (x, w₁)) :
    ∃ w', (s.answer e r).run w =
        (if r.method = "HEAD" then { responseOf x with body := "" } else responseOf x, w') ∧
      w₁.Quiet w' := by
  have hquiet := s.sampleRequest_quiet e (w₁.now - w.now) (responseOf x) w₁
  refine ⟨_, ?_, hquiet⟩
  simp only [answer, StateT.run_bind, StateT.run_get, h, pure_bind]
  cases x <;> rfl

/-- A request that a path and its method lead to an endpoint is answered with what comes of its
handling. -/
theorem respond_run {side : Side} {rt : Route} (hroute : route side r.path = .route rt)
    (he : rt.endpoint? r.method = some e) (hmethod : ¬ r.method = "HEAD")
    {x : Except Failure Response} (h : (s.handle e r).outcome.run w = (x, w₁)) :
    ∃ w', (s.respond side r).run w = (responseOf x, w') ∧ w₁.Quiet w' := by
  have hendpoint : s.respond side r = s.answer e r := by
    unfold respond
    rw [hroute]
    dsimp only
    rw [he]
    rfl
  obtain ⟨w', hanswer, hquiet⟩ := answer_run h
  rw [if_neg hmethod] at hanswer
  exact ⟨w', hendpoint ▸ hanswer, hquiet⟩

theorem respond_get {side : Side} {rt : Route} (hroute : route side r.path = .route rt)
    (hget : rt.get = some e) (hmethod : r.method = "GET") {x : Except Failure Response}
    (h : (s.handle e r).outcome.run w = (x, w₁)) :
    ∃ w', (s.respond side r).run w = (responseOf x, w') ∧ w₁.Quiet w' := by
  have hendpoint : rt.endpoint? r.method = some e := by
    rw [hmethod]
    exact hget
  have hbody : ¬ r.method = "HEAD" := by
    rw [hmethod]
    decide
  exact respond_run hroute hendpoint hbody h

end NetworkPolicy.Service
