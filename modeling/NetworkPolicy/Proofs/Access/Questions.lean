import NetworkPolicy.Proofs.Access.Likeness
import NetworkPolicy.Proofs.Lists

/-! What the services are asked. A record of the questions changes nothing else, and shows that the
spaces of all applications of a batch are looked up, each once and so many at a time at most. -/
namespace NetworkPolicy

/-! ### Records -/

/-- What a service may be asked. -/
inductive Question where
  | caller (token : String)
  | serviceToken
  | appSpaces (token : String) (apps : List String)
  | userSpaces (token user : String)
  | liveApps (token : String) (apps : List String)

/-- The applications that a question looks up, if it looks up any. -/
def Question.apps? : Question → Option (List String)
  | appSpaces _ apps | liveApps _ apps => some apps
  | _ => none

/-- A question that was put to a service, and whether it was answered. -/
structure Asked where
  question : Question
  answered : Bool

/-- The applications looked up, one list for each time that some were. -/
def lookups (asked : List Asked) : List (List String) := asked.filterMap (·.question.apps?)

/-- Whether there is an answer, and it is no failure. -/
def Reply.isAnswer {α : Type} : Reply α → Bool
  | answer (.ok _) => true
  | _ => false

variable {κ α : Type}

/-- A call that is put on record. -/
def noting (q : Question) (call : κ → Reply α × κ) :
    κ × List Asked → Reply α × (κ × List Asked) := fun (k, asked) =>
  let (r, k) := call k
  (r, k, asked ++ [⟨q, r.isAnswer⟩])

/-- The services, with a record of what they are asked. -/
def Collaborators.recorded (c : Collaborators κ) : Collaborators (κ × List Asked) where
  checkToken token := noting (.caller token) (c.checkToken token)
  serviceToken := noting .serviceToken c.serviceToken
  appSpaces token apps := noting (.appSpaces token apps) (c.appSpaces token apps)
  userSpaces token user := noting (.userSpaces token user) (c.userSpaces token user)
  liveApps token apps := noting (.liveApps token apps) (c.liveApps token apps)

theorem noting_alike (q : Question) (call : κ → Reply α × κ) :
    RepliedAlike (fun k k' => k.1 = k') Eq (noting q call) call := by
  rintro ⟨k, asked⟩ _ rfl
  exact ⟨Reply.matching_refl _, rfl⟩

/-- A record changes none of the replies. -/
theorem recorded_alike (c : Collaborators κ) : c.recorded.Alike (fun k k' => k.1 = k') c where
  checkToken _ := noting_alike _ _
  serviceToken := noting_alike _ _
  appSpaces _ _ := noting_alike _ _
  userSpaces _ _ := noting_alike _ _
  liveApps _ _ := noting_alike _ _

theorem exists_answer {r : Reply α} (h : r.isAnswer = true) : ∃ a, r = .answer (.ok a) := by
  rcases r with (_ | a) | _
  · exact nomatch h
  · exact ⟨a, rfl⟩
  · exact nomatch h

/-! ### Lookups -/

/-- The lookups name the ends of the policies, each once and in increasing order, and not more than
`size` at a time, where zero counts as one. -/
structure Covers (size : Nat) (ps : List Policy) (lookups : List (List String)) : Prop where
  sized : ∀ apps ∈ lookups, 1 ≤ apps.length ∧ apps.length ≤ max 1 size
  increasing : lookups.flatten.Pairwise (· < ·)
  complete : ∀ g, g ∈ lookups.flatten ↔ ∃ p ∈ ps, g ∈ p.ends

theorem covers_batches (size : Nat) (ps : List Policy) :
    Covers size ps (batches size (namedApps ps)) where
  sized _ h := length_of_mem_batches h
  increasing := by
    rw [flatten_batches]
    exact sortedDistinct_increasing _
  complete _ := by
    rw [flatten_batches]
    exact mem_namedApps

variable {caller : Caller}

/-- If all that it asks is answered, the computation looks up these lists, and succeeds. -/
def LooksUp {σ ε : Type} (record : σ → List Asked) (f : σ → Except ε α × σ)
    (lists : List (List String)) : Prop :=
  ∀ s, ∃ more, record (f s).2 = record s ++ more ∧
    ((∀ a ∈ more, a.answered = true) → lookups more = lists ∧ ∃ a, (f s).1 = .ok a)

theorem LooksUp.andThen {σ ε β : Type} {record : σ → List Asked} {f : σ → Except ε α × σ}
    {g : α → σ → Except ε β × σ} {all lists lists' : List (List String)}
    (hlists : lists ++ lists' = all) (h : LooksUp record f lists)
    (h' : ∀ a, LooksUp record (g a) lists') : LooksUp record (andThen f g) all := by
  subst hlists
  intro s
  obtain ⟨more, hmore, hall⟩ := h s
  unfold NetworkPolicy.andThen
  rcases hf : f s with ⟨e | a, s₁⟩
  · rw [hf] at hmore hall
    refine ⟨more, hmore, fun hanswered => ?_⟩
    obtain ⟨-, _, hok⟩ := hall hanswered
    exact nomatch hok
  · rw [hf] at hmore hall
    obtain ⟨more', hmore', hall'⟩ := h' a s₁
    refine ⟨more ++ more', ?_, fun hanswered => ?_⟩
    · rw [hmore', hmore, List.append_assoc]
    · obtain ⟨hlists, -⟩ := hall fun a ha => hanswered a (List.mem_append_left _ ha)
      obtain ⟨hlists', hok⟩ := hall' fun a ha => hanswered a (List.mem_append_right _ ha)
      refine ⟨?_, hok⟩
      rw [lookups, List.filterMap_append]
      exact congrArg₂ (· ++ ·) hlists hlists'

theorem looksUp_pure (a : α) :
    LooksUp Prod.snd (Inquiry.outcome (pure a : Inquiry (κ × List Asked) α)) [] :=
  fun _ => ⟨[], (List.append_nil _).symm, fun _ => ⟨rfl, a, rfl⟩⟩

theorem looksUp_ask (q : Question) (call : κ → Reply α × κ) :
    LooksUp Prod.snd (Inquiry.ask (noting q call)).outcome q.apps?.toList := by
  rintro ⟨k, asked⟩
  refine ⟨[⟨q, (call k).1.isAnswer⟩], rfl, fun hall => ⟨?_, ?_⟩⟩
  · cases hq : q.apps? <;> simp [lookups, hq]
  · obtain ⟨a, ha⟩ := exists_answer (hall _ (List.mem_singleton_self _))
    exact ⟨a, congrArg Reply.awaited ha⟩

theorem looksUp_bind {β : Type} {q : Inquiry (κ × List Asked) α} {f : α → Inquiry (κ × List Asked) β}
    {all lists lists' : List (List String)} (hlists : lists ++ lists' = all)
    (h : LooksUp Prod.snd q.outcome lists) (h' : ∀ a, LooksUp Prod.snd (f a).outcome lists') :
    LooksUp Prod.snd (q >>= f).outcome all := by
  rw [Inquiry.outcome_bind_eq]
  exact LooksUp.andThen hlists h h'

theorem looksUp_lookUpSpaces (c : Collaborators κ) (token : String) (bs : List (List String))
    (known : Spaces) : LooksUp Prod.snd (lookUpSpaces c.recorded token bs known).outcome bs := by
  induction bs generalizing known with
  | nil => exact looksUp_pure known
  | cons apps bs ih =>
    exact looksUp_bind rfl (looksUp_ask (.appSpaces token apps) _) fun found =>
      ih (known.putAll found)

/-- A listing for a caller who is no administrator looks up the spaces of all applications in it. -/
theorem looksUp_visible (c : Collaborators κ) (hcaller : caller.isAdmin = false) (size : Nat)
    (ps : List Policy) : LooksUp Prod.snd (visible c.recorded size caller ps).outcome
      (batches size (namedApps ps)) := by
  unfold visible
  split
  · rename_i hempty
    rw [hcaller, Bool.false_or] at hempty
    have hnone : namedApps ps = [] := by rw [List.isEmpty_iff.mp hempty]; rfl
    rw [hnone, batches]
    exact looksUp_pure ps
  · refine looksUp_bind (List.nil_append _) (looksUp_ask .serviceToken _) fun token => ?_
    refine looksUp_bind (List.append_nil _) (looksUp_lookUpSpaces c token _ []) fun spaces => ?_
    refine looksUp_bind (List.nil_append _) (looksUp_ask (.userSpaces token caller.userId) _)
      fun own => ?_
    exact looksUp_pure _

end NetworkPolicy
