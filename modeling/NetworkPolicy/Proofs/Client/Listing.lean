import Mathlib.Data.List.Basic
import NetworkPolicy.Client.Listing
import NetworkPolicy.Proofs.Access.Likeness

/-! How a listing follows its pages: up to the first one that fails or links to no other, or until
the most pages that a listing may have are read. A listing is got whole or not at all. -/
namespace NetworkPolicy.Client

variable {τ α β : Type} {link : String} {chain : List String} {t t' : τ}
  {r : Except ServiceError (List α)} {limit : Nat}

/-! ### Single pages -/

/-- The call for the page that a link leads to, if one can be made. -/
def callFor (token link : String) : Option Call :=
  (Call.to "GET" link.toList (bearer token)).toOption

/-- What asking for the page that a link leads to comes to. -/
inductive Presents (send : Transport τ) (token : String) (resource : Json.Reader α) (link : String)
    (t : τ) : Except ServiceError (Page α) → τ → Prop where
  /-- The link cannot be followed, and nothing is sent. -/
  | unusable {cause : String} : Call.to "GET" link.toList (bearer token) = .error cause →
      Presents send token resource link t (.error (.unavailable cause)) t
  | unreached {call : Call} {cause : String} {t' : τ} : callFor token link = some call →
      send call t = (.error cause, t') →
      Presents send token resource link t (.error (.unavailable cause)) t'
  | refused {call : Call} {answer : Answer} {t' : τ} : callFor token link = some call →
      send call t = (.ok answer, t') → ¬ (200 ≤ answer.status ∧ answer.status ≤ 299) →
      Presents send token resource link t (.error
        (if 400 ≤ answer.status ∧ answer.status ≤ 499
          then .rejected ("cc returned status " ++ Http.statusText answer.status)
          else .unavailable ("cc returned status " ++ Http.statusText answer.status))) t'
  | unreadable {call : Call} {answer : Answer} {e : Json.ReadError} {t' : τ} :
      callFor token link = some call → send call t = (.ok answer, t') →
      200 ≤ answer.status ∧ answer.status ≤ 299 →
      (Page.reader resource).ofText (Text.ofByteList answer.body) = .error e →
      Presents send token resource link t
        (.error (.invalidResponse ("cc listing: " ++ e.message))) t'
  | page {call : Call} {answer : Answer} {page : Page α} {t' : τ} :
      callFor token link = some call → send call t = (.ok answer, t') →
      200 ≤ answer.status ∧ answer.status ≤ 299 →
      (Page.reader resource).ofText (Text.ofByteList answer.body) = .ok page →
      Presents send token resource link t (.ok page) t'

theorem isSuccess_iff {code : Nat} : Http.isSuccess code = true ↔ 200 ≤ code ∧ code ≤ 299 := by
  simp [Http.isSuccess]

theorem ofStatus_eq (service : String) (code : Nat) : ServiceError.ofStatus service code =
    if 400 ≤ code ∧ code ≤ 499 then .rejected (service ++ " returned status " ++ Http.statusText code)
    else .unavailable (service ++ " returned status " ++ Http.statusText code) := by
  simp only [ServiceError.ofStatus, Http.isClientError, Bool.and_eq_true, decide_eq_true_eq]
  rfl

variable {send : Transport τ} {token : String} {resource : Json.Reader α}

theorem callFor_eq_some {call : Call} :
    callFor token link = some call ↔ Call.to "GET" link.toList (bearer token) = .ok call := by
  unfold callFor
  cases Call.to "GET" link.toList (bearer token) <;> simp [Except.toOption]

/-- The page in an answer, or why there is none. -/
def Answer.page (resource : Json.Reader α) (answer : Answer) : Except ServiceError (Page α) :=
  if Http.isSuccess answer.status then
    match (Page.reader resource).ofText (Text.ofByteList answer.body) with
    | .ok page => .ok page
    | .error e => .error (.invalidResponse s!"cc listing: {e.message}")
  else .error (.ofStatus "cc" answer.status)

theorem fetchPage_unusable {cause : String}
    (h : Call.to "GET" link.toList (bearer token) = .error cause) (t : τ) :
    (fetchPage send token resource link).outcome t = (.error (.unavailable cause), t) := by
  rw [fetchPage, Inquiry.outcome_bind, h]
  rfl

theorem fetchPage_sent {call : Call} (h : callFor token link = some call) (t : τ) :
    (fetchPage send token resource link).outcome t = match send call t with
      | (.error cause, t) => (.error (.unavailable cause), t)
      | (.ok answer, t) => (answer.page resource, t) := by
  rw [fetchPage, Inquiry.outcome_bind, callFor_eq_some.mp h]
  cases hsend : send call t with
  | mk sent t' =>
    cases sent with
    | error cause => simp only [Inquiry.outcome, exchange, hsend]
    | ok answer =>
      by_cases hsuccess : Http.isSuccess answer.status = true
      · simp only [Inquiry.outcome, exchange, hsend, hsuccess, if_true, Answer.page, readBody]
        cases (Page.reader resource).ofText (Text.ofByteList answer.body) <;> rfl
      · simp only [Inquiry.outcome, exchange, hsend, hsuccess, Answer.page]
        rfl

theorem Presents.outcome {page : Except ServiceError (Page α)}
    (h : Presents send token resource link t page t') :
    (fetchPage send token resource link).outcome t = (page, t') := by
  cases h with
  | unusable hcall => exact fetchPage_unusable hcall t
  | unreached hcall hsend => rw [fetchPage_sent hcall, hsend]
  | refused hcall hsend hstatus =>
    rw [fetchPage_sent hcall, hsend]
    simp only [Answer.page, isSuccess_iff, hstatus, if_false, ofStatus_eq]
    rfl
  | unreadable hcall hsend hstatus hread =>
    rw [fetchPage_sent hcall, hsend]
    simp only [Answer.page, isSuccess_iff, hstatus, hread]
    rfl
  | page hcall hsend hstatus hread =>
    rw [fetchPage_sent hcall, hsend]
    simp only [Answer.page, isSuccess_iff, hstatus, hread]
    rfl

/-- What a function that fetches pages does, as a relation. -/
def Fetches (fetch : String → Inquiry τ (Page α)) (link : String) (t : τ)
    (page : Except ServiceError (Page α)) (t' : τ) : Prop :=
  (fetch link).outcome t = (page, t')

section Chains

variable (pages : String → τ → Except ServiceError (Page α) → τ → Prop)

/-- Pages of which each links to the next one, the last one failing or linking to none, and what they
come to together. -/
inductive EndsAt : String → τ → List String → Except ServiceError (List α) → τ → Prop where
  | failure {link : String} {t t' : τ} {e : ServiceError} : pages link t (.error e) t' →
      EndsAt link t [link] (.error e) t'
  | last {link : String} {t t' : τ} {page : Page α} : pages link t (.ok page) t' →
      page.next = none → EndsAt link t [link] (.ok page.resources) t'
  | linked {link next : String} {t t' t'' : τ} {page : Page α} {chain : List String}
      {r : Except ServiceError (List α)} : pages link t (.ok page) t' → page.next = some next →
      EndsAt next t' chain r t'' → EndsAt link t (link :: chain) (r.map (page.resources ++ ·)) t''

/-- Pages of which each, the last one too, links to another. -/
inductive Continues : String → τ → List String → τ → Prop where
  | nil {link : String} {t : τ} : Continues link t [] t
  | cons {link next : String} {t t' t'' : τ} {page : Page α} {chain : List String} :
      pages link t (.ok page) t' → page.next = some next → Continues next t' chain t'' →
      Continues link t (link :: chain) t''

end Chains

variable {pages : String → τ → Except ServiceError (Page α) → τ → Prop}

/-- Fetches pages, and notes something about every link on the way. -/
def noted (note : String → List β) (fetch : String → Inquiry τ (Page α)) (link : String) :
    Inquiry (τ × List β) (Page α) := fun (t, notes) =>
  let (page, t) := (fetch link).outcome t
  (page, t, notes ++ note link)

/-- A transport that keeps the calls made over it. -/
def recorded (send : Transport τ) : Transport (τ × List Call) := fun call (t, calls) =>
  let (answer, t) := send call t
  (answer, t, calls ++ [call])

variable {fetch : String → Inquiry τ (Page α)} {note : String → List β}

/-- What a listing comes to that has more than the most pages. -/
def tooLong : ServiceError := .invalidResponse "cc listing exceeded 1000 pages"

theorem collect_continues (h : Continues (Fetches fetch) link t chain t')
    (hlength : chain.length = limit) :
    (collect fetch link limit).outcome t = (.error tooLong, t') := by
  induction h generalizing limit with
  | nil =>
    subst hlength
    rfl
  | cons hpage hnext _ ih =>
    subst hlength
    rw [List.length_cons, collect, Inquiry.outcome_bind, hpage]
    simp only [hnext, Inquiry.outcome_bind, ih rfl]

theorem Fetches.noted {page : Except ServiceError (Page α)} (h : Fetches fetch link t page t')
    (notes : List β) :
    Fetches (noted note fetch) link (t, notes) page (t', notes ++ note link) := by
  change (let (page, t) := (fetch link).outcome t; (page, t, notes ++ note link)) = _
  rw [show (fetch link).outcome t = (page, t') from h]

theorem EndsAt.noted (h : EndsAt (Fetches fetch) link t chain r t') (notes : List β) :
    EndsAt (Fetches (noted note fetch)) link (t, notes) chain r (t', notes ++ chain.flatMap note) := by
  induction h generalizing notes with
  | @failure link _ _ _ hpage =>
    rw [List.flatMap_singleton]
    exact .failure (hpage.noted notes)
  | @last link _ _ _ hpage hlast =>
    rw [List.flatMap_singleton]
    exact .last (hpage.noted notes) hlast
  | linked hpage hnext _ ih =>
    rw [List.flatMap_cons, ← List.append_assoc]
    exact .linked (hpage.noted notes) hnext (ih _)

theorem Continues.noted (h : Continues (Fetches fetch) link t chain t') (notes : List β) :
    Continues (Fetches (noted note fetch)) link (t, notes) chain
      (t', notes ++ chain.flatMap note) := by
  induction h generalizing notes with
  | nil =>
    rw [List.flatMap_nil, List.append_nil]
    exact .nil
  | cons hpage hnext _ ih =>
    rw [List.flatMap_cons, ← List.append_assoc]
    exact .cons (hpage.noted notes) hnext (ih _)

/-- The links whose pages are asked for in a listing of `limit` pages at most, after what the listing
comes to. -/
def attempts (fetch : String → Inquiry τ (Page α)) (link : String) (limit : Nat) (t : τ) :
    Except ServiceError (List α) × τ × List String :=
  (collect (noted (fun link => [link]) fetch) link limit).outcome (t, [])

theorem attempts_continues (h : Continues (Fetches fetch) link t chain t')
    (hlength : chain.length = limit) :
    attempts fetch link limit t = (.error tooLong, t', chain) := by
  rw [attempts, collect_continues (h.noted []) hlength, List.nil_append, List.flatMap_singleton']

/-- A page that links to itself is asked for again and again, and the listing is given up. -/
theorem attempts_circular {page : Page α} (hpage : Fetches fetch link t (.ok page) t)
    (hnext : page.next = some link) (limit : Nat) :
    attempts fetch link limit t = (.error tooLong, t, List.replicate limit link) := by
  have hcontinues : Continues (Fetches fetch) link t (List.replicate limit link) t := by
    induction limit with
    | zero => exact .nil
    | succ limit ih => exact .cons hpage hnext ih
  exact attempts_continues hcontinues List.length_replicate

end NetworkPolicy.Client
