import NetworkPolicy.Access.Guard

/-! Computations that go alike on services that answer alike. -/
namespace NetworkPolicy

variable {κ κ' α β γ δ ε σ τ : Type} {R : σ → τ → Prop} {Q : α → β → Prop}

/-- Both succeed, with results that are related, or both fail in the same way. -/
inductive Matching (Q : α → β → Prop) : Except ε α → Except ε β → Prop where
  | ok {a : α} {b : β} : Q a b → Matching Q (.ok a) (.ok b)
  | error {e : ε} : Matching Q (.error e) (.error e)

/-- From related states the two come to matching results and to related states. -/
def Alike (R : σ → τ → Prop) (Q : α → β → Prop) (f : σ → Except ε α × σ)
    (g : τ → Except ε β × τ) : Prop :=
  ∀ s t, R s t → Matching Q (f s).1 (g t).1 ∧ R (f s).2 (g t).2

theorem Matching.eq {x y : Except ε α} (h : Matching Eq x y) : x = y := by
  cases h with
  | ok h => rw [h]
  | error => rfl

theorem matching_refl (x : Except ε α) : Matching Eq x x := by
  cases x with
  | ok a => exact .ok rfl
  | error e => exact .error

theorem Matching.mono {P : α → β → Prop} {x : Except ε α} {y : Except ε β} (h : Matching P x y)
    (hPQ : ∀ a b, P a b → Q a b) : Matching Q x y := by
  cases h with
  | ok hab => exact .ok (hPQ _ _ hab)
  | error => exact .error

theorem Alike.mono {P : α → β → Prop} {f : σ → Except ε α × σ} {g : τ → Except ε β × τ}
    (h : Alike R P f g) (hPQ : ∀ a b, P a b → Q a b) : Alike R Q f g :=
  fun s t hst => ⟨(h s t hst).1.mono hPQ, (h s t hst).2⟩

/-- The first computation, and then the second one on its result if there is one. -/
def andThen (f : σ → Except ε α × σ) (g : α → σ → Except ε γ × σ) : σ → Except ε γ × σ := fun s =>
  match f s with
  | (.ok a, s) => g a s
  | (.error e, s) => (.error e, s)

theorem Alike.andThen {P : γ → δ → Prop} {f : σ → Except ε α × σ} {g : τ → Except ε β × τ}
    {f' : α → σ → Except ε γ × σ} {g' : β → τ → Except ε δ × τ} (h : Alike R Q f g)
    (h' : ∀ a b, Q a b → Alike R P (f' a) (g' b)) : Alike R P (andThen f f') (andThen g g') := by
  intro s t hst
  obtain ⟨hresult, hstates⟩ := h s t hst
  unfold NetworkPolicy.andThen
  rcases hf : f s with ⟨x, s₁⟩
  rcases hg : g t with ⟨y, t₁⟩
  rw [hf, hg] at hresult hstates
  cases hresult with
  | ok hab => exact h' _ _ hab _ _ hstates
  | error => exact ⟨.error, hstates⟩

/-! ### Services -/

/-- What comes back is an answer from both, and these match, or nothing from both. -/
inductive Reply.Matching (Q : α → β → Prop) : Reply α → Reply β → Prop where
  | answer {x : Except ServiceError α} {y : Except ServiceError β} :
      NetworkPolicy.Matching Q x y → Reply.Matching Q (.answer x) (.answer y)
  | silence : Reply.Matching Q .silence .silence

/-- In related states the two calls are replied to alike. -/
def RepliedAlike (R : κ → κ' → Prop) (Q : α → β → Prop) (call : κ → Reply α × κ)
    (call' : κ' → Reply β × κ') : Prop :=
  ∀ k k', R k k' → Reply.Matching Q (call k).1 (call' k').1 ∧ R (call k).2 (call' k').2

/-- The services reply to all questions alike. -/
structure Collaborators.Alike (R : κ → κ' → Prop) (c : Collaborators κ) (c' : Collaborators κ') :
    Prop where
  checkToken : ∀ token, RepliedAlike R Eq (c.checkToken token) (c'.checkToken token)
  serviceToken : RepliedAlike R Eq c.serviceToken c'.serviceToken
  appSpaces : ∀ token apps, RepliedAlike R Eq (c.appSpaces token apps) (c'.appSpaces token apps)
  userSpaces : ∀ token user, RepliedAlike R Eq (c.userSpaces token user) (c'.userSpaces token user)
  liveApps : ∀ token apps, RepliedAlike R Eq (c.liveApps token apps) (c'.liveApps token apps)

theorem Reply.Matching.awaited {r : Reply α} {r' : Reply β} (h : Reply.Matching Q r r') :
    NetworkPolicy.Matching Q r.awaited r'.awaited := by
  cases h with
  | answer h => exact h
  | silence => exact .error

theorem Reply.matching_refl (r : Reply α) : Reply.Matching Eq r r := by
  cases r with
  | answer x => exact .answer (NetworkPolicy.matching_refl x)
  | silence => exact .silence

/-! ### Inquiries -/

namespace Inquiry

variable {R : κ → κ' → Prop}

theorem alike_pure {a : α} {b : β} (h : Q a b) :
    Alike R Q (outcome (pure a)) (outcome (pure b)) :=
  fun _ _ hk => ⟨.ok h, hk⟩

theorem alike_ask {call : κ → Reply α × κ} {call' : κ' → Reply β × κ'}
    (h : RepliedAlike R Q call call') : Alike R Q (ask call).outcome (ask call').outcome :=
  fun k k' hk => ⟨(h k k' hk).1.awaited, (h k k' hk).2⟩

theorem outcome_bind_eq (q : Inquiry κ α) (f : α → Inquiry κ β) :
    (q >>= f).outcome = andThen q.outcome fun a => (f a).outcome := by
  funext k
  rw [outcome_bind, andThen]
  rcases q.outcome k with ⟨_ | _, _⟩ <;> rfl

theorem alike_bind {P : γ → δ → Prop} {q : Inquiry κ α} {q' : Inquiry κ' β} {f : α → Inquiry κ γ}
    {f' : β → Inquiry κ' δ} (h : Alike R Q q.outcome q'.outcome)
    (hf : ∀ a b, Q a b → Alike R P (f a).outcome (f' b).outcome) :
    Alike R P (q >>= f).outcome (q' >>= f').outcome := by
  rw [outcome_bind_eq, outcome_bind_eq]
  exact h.andThen hf

end Inquiry

section

variable {R : κ → κ' → Prop} {c : Collaborators κ} {c' : Collaborators κ'}

theorem lookUpSpaces_alike (h : c.Alike R c') (token : String) (bs : List (List String))
    (known : Spaces) : Alike R Eq (lookUpSpaces c token bs known).outcome
      (lookUpSpaces c' token bs known).outcome := by
  induction bs generalizing known with
  | nil => exact Inquiry.alike_pure rfl
  | cons apps bs ih =>
    refine Inquiry.alike_bind (Inquiry.alike_ask (h.appSpaces token apps)) ?_
    rintro found _ rfl
    exact ih (known.putAll found)

theorem visible_alike (h : c.Alike R c') (size : Nat) (caller : Caller) (ps : List Policy) :
    Alike R Eq (visible c size caller ps).outcome (visible c' size caller ps).outcome := by
  unfold visible
  split
  · exact Inquiry.alike_pure rfl
  · refine Inquiry.alike_bind (Inquiry.alike_ask h.serviceToken) ?_
    rintro token _ rfl
    refine Inquiry.alike_bind (lookUpSpaces_alike h token _ []) ?_
    rintro spaces _ rfl
    refine Inquiry.alike_bind (Inquiry.alike_ask (h.userSpaces token caller.userId)) ?_
    rintro own _ rfl
    exact Inquiry.alike_pure rfl

end

end NetworkPolicy
