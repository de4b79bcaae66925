import NetworkPolicy.Proofs.Store.Sessions

/-! The requests that a computation in a session sends: all are accepted, or the last of them is the first
that is refused. -/
namespace NetworkPolicy.Database

/-! ### Requests that are accepted -/

namespace Server

variable {s s' : Server} {q : Request} {new old : List Request}

/-- None of these further requests is refused; the newest stands first. -/
def Admits (s : Server) (new : List Request) : Prop :=
  ∀ q earlier, q :: earlier <:+ new → s.refuses (q :: (earlier ++ s.sent)) = none

theorem admits_nil (s : Server) : s.Admits [] := by
  intro q earlier h
  simp at h

theorem admits_cons :
    s.Admits (q :: new) ↔ s.refuses (q :: (new ++ s.sent)) = none ∧ s.Admits new := by
  constructor
  · intro h
    have hnew : s.Admits new := fun q' earlier h' => h q' earlier (h'.trans (List.suffix_cons q new))
    exact ⟨h q new List.suffix_rfl, hnew⟩
  · intro ⟨hq, h⟩ q' earlier h'
    rcases List.suffix_cons_iff.mp h' with heq | h'
    · obtain ⟨rfl, rfl⟩ := List.cons.inj heq
      exact hq
    · exact h q' earlier h'

theorem Admits.append (hnew : s'.Admits new) (hold : s.Admits old)
    (hsent : s'.sent = old ++ s.sent) (hrefuses : s'.refuses = s.refuses) : s.Admits (new ++ old) := by
  induction new with
  | nil => exact hold
  | cons q new ih =>
    obtain ⟨hq, hnew⟩ := admits_cons.mp hnew
    rw [hrefuses, hsent, ← List.append_assoc] at hq
    exact admits_cons.mpr ⟨hq, ih hnew⟩

theorem Admits.not_refusedSince (h : s.Admits new) (hsent : s'.sent = new ++ s.sent) :
    ¬ s.RefusedSince s' := by
  intro ⟨log, hlog, hlen, href⟩
  induction new generalizing s' with
  | nil =>
    rw [hsent] at hlog
    exact absurd hlog.length_le (Nat.not_le.mpr hlen)
  | cons q new ih =>
    obtain ⟨hq, hnew⟩ := admits_cons.mp h
    rw [hsent, List.cons_append] at hlog
    rcases List.suffix_cons_iff.mp hlog with rfl | hlog
    · rw [hq] at href
      cases href
    · exact @ih { s with sent := new ++ s.sent } hnew rfl hlog

theorem rollback_sent (s : Server) : s.rollback.sent = .rollback :: s.sent := by
  unfold rollback
  rw [receive_eq]
  cases s.refuses (.rollback :: s.sent) with
  | none => rfl
  | some why =>
    dsimp only [refuseEnd]
    split <;> rfl

end Server

/-! ### Requests of a computation -/

namespace Session

variable {ε α β : Type} {refused : Refusal → ε} {Allowed : Request → Prop} {s s' : Server}
  {m : Session ε α}

/-- A computation has sent only requests that are allowed. Either all were accepted, or the last of them is
the first that was refused, and that is the error. -/
inductive Course (refused : Refusal → ε) (Allowed : Request → Prop) (s : Server) :
    Except ε α × Server → Prop where
  | accepted {x : Except ε α} {s' : Server} {new : List Request} : s'.sent = new ++ s.sent →
      s'.refuses = s.refuses → (∀ q ∈ new, Allowed q) → s.Admits new → Course refused Allowed s (x, s')
  | refused {s' : Server} {q : Request} {new : List Request} {why : Refusal} :
      s'.sent = q :: (new ++ s.sent) → s'.refuses = s.refuses → Allowed q → (∀ q ∈ new, Allowed q) →
      s.Admits new → s.refuses (q :: (new ++ s.sent)) = some why →
      Course refused Allowed s (.error (refused why), s')

/-- The computation takes such a course on every server. -/
def Sends (refused : Refusal → ε) (Allowed : Request → Prop) (m : Session ε α) : Prop :=
  ∀ s, Course refused Allowed s (m.run s)

/-- What goes on where all was accepted goes on with the course. -/
theorem Course.after {new : List Request} {y : Except ε α × Server} (hsent : s'.sent = new ++ s.sent)
    (hrefuses : s'.refuses = s.refuses) (hnew : ∀ q ∈ new, Allowed q) (hadmits : s.Admits new)
    (h : Course refused Allowed s' y) : Course refused Allowed s y := by
  cases h with
  | @accepted x s'' new' hsent' hrefuses' hnew' hadmits' =>
    refine .accepted ?_ (hrefuses'.trans hrefuses) ?_ (hadmits'.append hadmits hsent hrefuses)
    · rw [hsent', hsent, List.append_assoc]
    · exact List.forall_mem_append.mpr ⟨hnew', hnew⟩
  | @refused s'' q new' why hsent' hrefuses' hq hnew' hadmits' hwhy =>
    rw [hrefuses, hsent, ← List.append_assoc] at hwhy
    refine .refused ?_ (hrefuses'.trans hrefuses) hq ?_ (hadmits'.append hadmits hsent hrefuses) hwhy
    · rw [hsent', hsent, List.append_assoc]
    · exact List.forall_mem_append.mpr ⟨hnew', hnew⟩

theorem sends_pure (a : α) : Sends refused Allowed (pure a : Session ε α) :=
  fun s => .accepted rfl rfl (by simp) s.admits_nil

theorem sends_throw (e : ε) : Sends refused Allowed (throw e : Session ε α) :=
  fun s => .accepted rfl rfl (by simp) s.admits_nil

theorem Sends.bind {k : α → Session ε β} (hm : Sends refused Allowed m)
    (hk : ∀ a, Sends refused Allowed (k a)) : Sends refused Allowed (m >>= k) := by
  intro s
  have h := hm s
  rw [run_bind]
  generalize m.run s = y at h ⊢
  cases h with
  | @accepted x s' new hsent hrefuses hnew hadmits =>
    cases x with
    | error e => exact .accepted hsent hrefuses hnew hadmits
    | ok a => exact (hk a s').after hsent hrefuses hnew hadmits
  | refused hsent hrefuses hq hnew hadmits hwhy =>
    exact .refused hsent hrefuses hq hnew hadmits hwhy

theorem sends_execute (text : String) (effect : Tables → Except String (α × Tables))
    (htext : Allowed (.statement text)) : Sends refused Allowed (execute refused text effect) := by
  intro s
  rw [execute, run_send]
  cases hwhy : s.refuses (.statement text :: s.sent) with
  | some why => exact .refused rfl rfl htext (by simp) s.admits_nil hwhy
  | none =>
    have hadmits : s.Admits [.statement text] := Server.admits_cons.mpr ⟨hwhy, s.admits_nil⟩
    have hnew : ∀ q ∈ [Request.statement text], Allowed q := by simpa using htext
    dsimp only
    cases effect (s.after (.statement text)).view with
    | error why => exact .accepted rfl rfl hnew hadmits
    | ok r =>
      have hsent : ((s.after (.statement text)).update r.2).sent = [.statement text] ++ s.sent := by
        unfold Server.update
        split <;> rfl
      have hrefuses : ((s.after (.statement text)).update r.2).refuses = s.refuses := by
        unfold Server.update
        split <;> rfl
      exact .accepted hsent hrefuses hnew hadmits

theorem sends_query (text : String) (read : Tables → Except String α)
    (htext : Allowed (.statement text)) : Sends refused Allowed (query refused text read) :=
  sends_execute text _ htext

theorem sends_forM {m : β → Session ε Unit} (h : ∀ b, Sends refused Allowed (m b)) (bs : List β) :
    Sends refused Allowed (bs.forM m) := by
  induction bs with
  | nil => exact sends_pure ()
  | cons b bs ih => exact (h b).bind fun _ => ih

theorem sends_mapM {m : β → Session ε α} (h : ∀ b, Sends refused Allowed (m b)) (bs : List β) :
    Sends refused Allowed (bs.mapM m) := by
  induction bs with
  | nil => exact sends_pure []
  | cons b bs ih =>
    rw [List.mapM_cons]
    exact (h b).bind fun _ => ih.bind fun _ => sends_pure _

end Session
end NetworkPolicy.Database
