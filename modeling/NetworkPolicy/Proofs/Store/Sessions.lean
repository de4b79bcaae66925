import NetworkPolicy.Store.Session

/-! What a computation in a session does, told by its effect on the tables. A server may refuse any
request: then the computation ends with that refusal. A transaction either does the whole of its
effect or leaves the committed tables as they are. -/
namespace NetworkPolicy.Database

namespace Server

variable {s s' s'' : Server}

/-- The second server is the first after further requests. -/
structure Precedes (s s' : Server) : Prop where
  sent : s.sent <:+ s'.sent
  refuses : s'.refuses = s.refuses
  endsWhenRefused : s'.endsWhenRefused = s.endsWhenRefused

/-- A request was refused that the second server has seen and the first has not. -/
def RefusedSince (s s' : Server) : Prop :=
  ∃ log, log <:+ s'.sent ∧ s.sent.length < log.length ∧ (s.refuses log).isSome

theorem Precedes.refl (s : Server) : s.Precedes s := ⟨List.suffix_rfl, rfl, rfl⟩

theorem Precedes.trans (h : s.Precedes s') (h' : s'.Precedes s'') : s.Precedes s'' :=
  ⟨h.sent.trans h'.sent, h'.refuses.trans h.refuses, h'.endsWhenRefused.trans h.endsWhenRefused⟩

theorem not_refusedSince_self (s : Server) : ¬ s.RefusedSince s := by
  rintro ⟨log, hlog, hlen, -⟩
  exact absurd hlog.length_le (Nat.not_le.mpr hlen)

theorem not_refusedSince_of_never (h : s.refuses = fun _ => none) (s' : Server) :
    ¬ s.RefusedSince s' := by
  rintro ⟨log, -, -, hlog⟩
  rw [h] at hlog
  cases hlog

theorem RefusedSince.mono (h : s.RefusedSince s') (h' : s'.Precedes s'') : s.RefusedSince s'' := by
  obtain ⟨log, hlog, hlen, href⟩ := h
  exact ⟨log, hlog.trans h'.sent, hlen, href⟩

theorem Precedes.refusedSince (h : s.Precedes s') (h' : s'.RefusedSince s'') :
    s.RefusedSince s'' := by
  obtain ⟨log, hlog, hlen, href⟩ := h'
  exact ⟨log, hlog, Nat.lt_of_le_of_lt h.sent.length_le hlen, h.refuses ▸ href⟩

theorem not_refusedSince_trans (h : s.Precedes s') (h' : s'.Precedes s'')
    (hq : ¬ s.RefusedSince s') (hq' : ¬ s'.RefusedSince s'') : ¬ s.RefusedSince s'' := by
  rintro ⟨log, hlog, hlen, href⟩
  by_cases hlt : s'.sent.length < log.length
  · exact hq' ⟨log, hlog, hlt, h.refuses.symm ▸ href⟩
  · exact hq ⟨log, List.suffix_of_suffix_length_le hlog h'.sent (Nat.not_lt.mp hlt), hlen, href⟩

/-- The server once it has taken note of a request. -/
def after (s : Server) (r : Request) : Server := { s with sent := r :: s.sent }

theorem receive_eq (s : Server) (r : Request) :
    s.receive r = (s.refuses (r :: s.sent), s.after r) := rfl

theorem precedes_after (s : Server) (r : Request) : s.Precedes (s.after r) :=
  ⟨List.suffix_cons r s.sent, rfl, rfl⟩

theorem refusedSince_after {r : Request} :
    s.RefusedSince (s.after r) ↔ (s.refuses (r :: s.sent)).isSome := by
  constructor
  · rintro ⟨log, hlog, hlen, href⟩
    rcases List.suffix_cons_iff.mp hlog with rfl | hlog
    · exact href
    · exact absurd hlog.length_le (Nat.not_le.mpr hlen)
  · exact fun h => ⟨_, List.suffix_rfl, Nat.lt_succ_self _, h⟩

/-- A transaction that is not committed leaves nothing: its end is not refused, or a refused end is
an end all the same. -/
def Transactional (s : Server) : Prop :=
  s.endsWhenRefused = true ∨
    ∀ log, s.refuses (.commit :: log) = none ∧ s.refuses (.rollback :: log) = none

theorem Transactional.mono (h : s.Transactional) (h' : s.Precedes s') : s'.Transactional := by
  unfold Transactional
  rw [h'.endsWhenRefused, h'.refuses]
  exact h

/-- Giving a transaction up leaves the committed tables, and no open transaction. -/
theorem rollback_spec (hs : s.Transactional) :
    s.Precedes s.rollback ∧ s.rollback.tables = s.tables ∧ s.rollback.working = none := by
  have ha := s.precedes_after .rollback
  unfold rollback
  rw [receive_eq]
  cases href : s.refuses (.rollback :: s.sent) with
  | none => exact ⟨⟨ha.sent, rfl, rfl⟩, rfl, rfl⟩
  | some why =>
    rcases hs with hends | hnever
    · simp only [refuseEnd, after, hends, if_true]
      exact ⟨⟨ha.sent, rfl, hends.symm⟩, trivial, trivial⟩
    · exact absurd (href.symm.trans (hnever s.sent).2) (Option.some_ne_none why)

end Server

open Server

/-! ### Computations in a transaction -/

namespace Session

variable {ε α β : Type} {refused : Refusal → ε}

/-- How a computation ends that was begun in a transaction on `s`, when its effect on the tables is
to be the first argument: with that effect, or with a refusal. -/
inductive Outcome (refused : Refusal → ε) (s : Server) :
    Except ε (α × Tables) → Except ε α × Server → Prop where
  | ok {a : α} {t : Tables} {s' : Server} : s.Precedes s' → ¬ s.RefusedSince s' →
      s'.tables = s.tables → s'.working = some t → Outcome refused s (.ok (a, t)) (.ok a, s')
  | error {e : ε} {s' : Server} : s.Precedes s' → ¬ s.RefusedSince s' → s'.tables = s.tables →
      Outcome refused s (.error e) (.error e, s')
  | refused {x : Except ε (α × Tables)} {why : Refusal} {s' : Server} : s.Precedes s' →
      s.RefusedSince s' → s'.tables = s.tables → Outcome refused s x (.error (refused why), s')

/-- In a transaction on the tables `t` the computation comes to `x`, and leaves tables with `P`. -/
structure Yields (P : Tables → Prop) (refused : Refusal → ε) (m : Session ε α) (t : Tables)
    (x : Except ε (α × Tables)) : Prop where
  outcome : ∀ s, s.working = some t → Outcome refused s x (m.run s)
  keeps : ∀ a t', x = .ok (a, t') → P t'

variable {P : Tables → Prop} {m : Session ε α} {t t' : Tables} {x : Except ε (α × Tables)}

theorem yields_pure (ht : P t) (a : α) : Yields P refused (pure a : Session ε α) t (.ok (a, t)) where
  outcome := fun s hw => .ok (.refl s) s.not_refusedSince_self rfl hw
  keeps := by
    rintro b t' ⟨⟩
    exact ht

theorem yields_throw (e : ε) : Yields P refused (throw e : Session ε α) t (.error e) where
  outcome := fun s _ => .error (.refl s) s.not_refusedSince_self rfl
  keeps := by
    rintro a t' ⟨⟩

/-- What follows goes on from the tables that the first computation leaves. -/
theorem Yields.bind {k : α → Session ε β} {g : α → Tables → Except ε (β × Tables)}
    (hm : Yields P refused m t x)
    (hk : ∀ a t', x = .ok (a, t') → P t' → Yields P refused (k a) t' (g a t')) :
    Yields P refused (m >>= k) t (x >>= fun r => g r.1 r.2) where
  outcome := by
    intro s hw
    have h := hm.outcome s hw
    rw [run_bind]
    generalize m.run s = y at h ⊢
    cases h with
    | @ok a t' s' hs hq htab hw' =>
      have h' := (hk a t' rfl (hm.keeps a t' rfl)).outcome s' hw'
      change Outcome refused s (g a t') ((k a).run s')
      generalize g a t' = x at h' ⊢
      generalize (k a).run s' = y at h' ⊢
      cases h' with
      | ok hs' hq' htab' hw'' =>
        exact .ok (hs.trans hs') (not_refusedSince_trans hs hs' hq hq') (htab'.trans htab) hw''
      | error hs' hq' htab' =>
        exact .error (hs.trans hs') (not_refusedSince_trans hs hs' hq hq') (htab'.trans htab)
      | refused hs' hr htab' =>
        exact .refused (hs.trans hs') (hs.refusedSince hr) (htab'.trans htab)
    | error hs hq htab => exact .error hs hq htab
    | refused hs hr htab => exact .refused hs hr htab
  keeps := by
    intro b t' h
    cases hx : x with
    | error e => simp [hx, Bind.bind, Except.bind] at h
    | ok r =>
      simp only [hx, Bind.bind, Except.bind] at h
      exact (hk r.1 r.2 hx (hm.keeps r.1 r.2 hx)).keeps b t' h

theorem Yields.bindOk {k : α → Session ε β} {a : α} {y : Except ε (β × Tables)}
    (hm : Yields P refused m t (.ok (a, t'))) (hk : P t' → Yields P refused (k a) t' y) :
    Yields P refused (m >>= k) t y := by
  refine hm.bind (g := fun _ _ => y) fun b u h hu => ?_
  cases h
  exact hk hu

theorem Yields.bindError {k : α → Session ε β} {e : ε} (hm : Yields P refused m t (.error e)) :
    Yields P refused (m >>= k) t (.error e) :=
  hm.bind (g := fun _ _ => .error e) fun _ _ h => nomatch h

theorem run_send (r : Request) (next : Server → Except ε α × Server) (s : Server) :
    (send refused r next).run s = match s.refuses (r :: s.sent) with
      | some why => (.error (refused why), s.after r)
      | none => next (s.after r) := by
  rw [send, Session.run, Session.mk, ExceptT.run_mk, receive_eq]
  cases s.refuses (r :: s.sent) <;> rfl

theorem yields_execute (text : String) {effect : Tables → Except String (α × Tables)} {a : α}
    (he : effect t = .ok (a, t')) (ht : P t') :
    Yields P refused (execute refused text effect) t (.ok (a, t')) where
  outcome := by
    intro s hw
    have hs := s.precedes_after (.statement text)
    have hview : (s.after (.statement text)).view = t := by simp [Server.view, Server.after, hw]
    rw [execute, run_send]
    cases href : s.refuses (.statement text :: s.sent) with
    | some why => exact .refused hs (refusedSince_after.mpr (by rw [href]; rfl)) rfl
    | none =>
      have hq : ¬ s.RefusedSince (s.after (.statement text)) := by
        rw [refusedSince_after, href]
        exact Bool.false_ne_true
      have hopen : (s.after (.statement text)).working.isSome := by simp [Server.after, hw]
      simp only [hview, he, update, hopen, if_true]
      exact .ok ⟨hs.sent, rfl, rfl⟩ hq rfl rfl
  keeps := by
    rintro b u ⟨⟩
    exact ht

theorem yields_query (text : String) {read : Tables → Except String α} {a : α}
    (hr : read t = .ok a) (ht : P t) :
    Yields P refused (query refused text read) t (.ok (a, t)) :=
  yields_execute text (by rw [hr]; rfl) ht

/-- Effects that cannot fail, one after the other, and all they give. -/
def mapEffect (g : β → Tables → α × Tables) : List β → Tables → List α × Tables
  | [], t => ([], t)
  | b :: bs, t =>
    let (a, t) := g b t
    let (as, t) := mapEffect g bs t
    (a :: as, t)

theorem yields_mapM {m : β → Session ε α} {g : β → Tables → α × Tables}
    (h : ∀ b t, P t → Yields P refused (m b) t (.ok (g b t))) (bs : List β) (ht : P t) :
    Yields P refused (bs.mapM m) t (.ok (mapEffect g bs t)) := by
  induction bs generalizing t with
  | nil => exact yields_pure ht []
  | cons b bs ih =>
    rw [List.mapM_cons]
    exact (h b t ht).bindOk fun hu => (ih hu).bindOk fun hv => yields_pure hv _

theorem yields_forM {m : β → Session ε Unit} {g : Tables → β → Except ε Tables}
    (h : ∀ b t, P t → Yields P refused (m b) t ((g t b).map ((), ·))) (bs : List β) (ht : P t) :
    Yields P refused (bs.forM m) t ((bs.foldlM g t).map ((), ·)) := by
  induction bs generalizing t with
  | nil => exact yields_pure ht ()
  | cons b bs ih =>
    have hnext := (h b t ht).bind fun _ u _ hu => ih hu
    rw [List.foldlM_cons]
    cases hg : g t b with
    | error e => rw [hg] at hnext; exact hnext
    | ok u => rw [hg] at hnext; exact hnext

theorem yields_forM_ok {m : β → Session ε Unit} {g : Tables → β → Tables}
    (h : ∀ b t, P t → Yields P refused (m b) t (.ok ((), g t b))) (bs : List β) (ht : P t) :
    Yields P refused (bs.forM m) t (.ok ((), bs.foldl g t)) := by
  induction bs generalizing t with
  | nil => exact yields_pure ht ()
  | cons b bs ih => exact (h b t ht).bindOk fun hu => ih hu

/-! ### Whole calls -/

/-- How a call ends that finds no open transaction on `s`, when its effect on the committed tables is
to be the first argument: with that effect, or with a failure and the tables as they were. -/
inductive Ending (refused : Refusal → ε) (s : Server) :
    Except ε (α × Tables) → Except ε α × Server → Prop where
  | committed {a : α} {s' : Server} : s.Precedes s' → ¬ s.RefusedSince s' → s'.working = none →
      Ending refused s (.ok (a, s'.tables)) (.ok a, s')
  | abandoned {x : Except ε (α × Tables)} {e : ε} {s' : Server} : s.Precedes s' →
      s'.working = none → s'.tables = s.tables →
      (x = .error e ∨ s.RefusedSince s' ∧ ∃ why, e = refused why) →
      Ending refused s x (.error e, s')

theorem run_orRollback (m : Session ε α) (s : Server) :
    (orRollback m).run s = match m.run s with
      | (.ok a, s) => (.ok a, s)
      | (.error e, s) => (.error e, s.rollback) := rfl

theorem run_start (text nested : String) {s : Server} (hw : s.working = none) :
    (start refused text nested).run s = match s.refuses (.start text :: s.sent) with
      | some why => (.error (refused why), s.after (.start text))
      | none => (.ok (), { s.after (.start text) with working := some s.tables }) := by
  rw [start, run_send]
  cases s.refuses (.start text :: s.sent) with
  | some why => rfl
  | none => simp [Server.after, hw]

theorem outcome_start {s : Server} {work : Session ε α} (text nested : String)
    (hidle : s.working = none) (h : Yields P refused work s.tables x) :
    Outcome refused s x ((start refused text nested >>= fun _ => work).run s) := by
  have hstart := s.precedes_after (.start text)
  rw [run_bind, run_start _ _ hidle]
  cases href : s.refuses (.start text :: s.sent) with
  | some why => exact .refused hstart (refusedSince_after.mpr (by rw [href]; rfl)) rfl
  | none =>
    let begun : Server := { s.after (.start text) with working := some s.tables }
    have hbegun : s.Precedes begun := ⟨hstart.sent, rfl, rfl⟩
    have hq : ¬ s.RefusedSince begun := by
      intro hr
      have := refusedSince_after.mp hr
      rw [href] at this
      exact absurd this Bool.false_ne_true
    have hout := h.outcome begun rfl
    dsimp only
    generalize work.run begun = y at hout ⊢
    cases hout with
    | ok hpre hq' htab hw =>
      exact .ok (hbegun.trans hpre) (not_refusedSince_trans hbegun hpre hq hq') htab hw
    | error hpre hq' htab =>
      exact .error (hbegun.trans hpre) (not_refusedSince_trans hbegun hpre hq hq') htab
    | refused hpre hr htab => exact .refused (hbegun.trans hpre) (hbegun.refusedSince hr) htab

theorem run_commit (s : Server) :
    (commit refused).run s = match s.refuses (.commit :: s.sent) with
      | some why => (.error (refused why), (s.after .commit).refuseEnd)
      | none => (.ok (), { s.after .commit with tables := s.view, working := none }) := by
  rw [commit, Session.run, Session.mk, ExceptT.run_mk, receive_eq]
  cases s.refuses (.commit :: s.sent) <;> rfl

theorem refuseEnd_spec (s : Server) :
    s.Precedes s.refuseEnd ∧ s.refuseEnd.tables = s.tables := by
  unfold Server.refuseEnd
  split
  · exact ⟨⟨List.suffix_rfl, rfl, rfl⟩, rfl⟩
  · exact ⟨.refl s, rfl⟩

theorem refuseEnd_idle {s : Server} (hs : s.Transactional) {log : List Request} {why : Refusal}
    (href : s.refuses (.commit :: log) = some why) : s.refuseEnd.working = none := by
  rcases hs with hends | hnever
  · rw [Server.refuseEnd, if_pos hends]
  · exact absurd (href.symm.trans (hnever log).1) (Option.some_ne_none why)

theorem ending_query {s : Server} {read : Tables → Except String α} {a : α} (text : String)
    (hidle : s.working = none) (hr : read s.tables = .ok a) :
    Ending refused s (.ok (a, s.tables)) ((query refused text read).run s) := by
  have hs := s.precedes_after (.statement text)
  have hview : (s.after (.statement text)).view = s.tables := by
    simp [Server.view, Server.after, hidle]
  rw [query, execute, run_send]
  cases href : s.refuses (.statement text :: s.sent) with
  | some why =>
    exact .abandoned hs hidle rfl (Or.inr ⟨refusedSince_after.mpr (by rw [href]; rfl), why, rfl⟩)
  | none =>
    have hq : ¬ s.RefusedSince (s.after (.statement text)) := by
      rw [refusedSince_after, href]
      exact Bool.false_ne_true
    have hclosed : (s.after (.statement text)).working.isSome = false := by
      simp [Server.after, hidle]
    simp only [hview, hr, Except.map, update, hclosed, Bool.false_eq_true, if_false]
    exact .committed hs hq hidle

/-- What goes on from the answer without the server. -/
theorem Ending.bindPure {s : Server} {k : α → Session ε β} {a : α} {b : β} {t : Tables}
    (h : Ending refused s (.ok (a, t)) (m.run s)) (hk : k a = pure b) :
    Ending refused s (.ok (b, t)) ((m >>= k).run s) := by
  rw [run_bind]
  generalize m.run s = y at h ⊢
  cases h with
  | committed hpre hq hidle =>
    simp only [hk, run_pure]
    exact .committed hpre hq hidle
  | abandoned hpre hidle htab hx =>
    exact .abandoned hpre hidle htab (Or.inr (hx.resolve_left fun h => nomatch h))

/-- What a failed transaction leaves once it is given up. -/
theorem Ending.ofRollback {s s' : Server} {x : Except ε (α × Tables)} {e : ε}
    (hs : s.Transactional) (h : s.Precedes s') (htab : s'.tables = s.tables)
    (hx : x = .error e ∨ s.RefusedSince s' ∧ ∃ why, e = refused why) :
    Ending refused s x (.error e, s'.rollback) := by
  obtain ⟨hr, hrtab, hrw⟩ := rollback_spec (hs.mono h)
  exact .abandoned (h.trans hr) hrw (hrtab.trans htab)
    (hx.imp_right fun hx => ⟨hx.1.mono hr, hx.2⟩)

/-- What is kept of a transaction when its commit is refused, if the refusal ends it. -/
theorem refusedSince_commit {s s' : Server} (h : s.Precedes s') {why : Refusal}
    (href : s'.refuses (.commit :: s'.sent) = some why) : s.RefusedSince (s'.after .commit) :=
  h.refusedSince (refusedSince_after.mpr (by rw [href]; rfl))

/-- A successful commit ends the call with the effect of the transaction. -/
theorem Ending.ofCommit {s s' : Server} {a : α} {t : Tables} (h : s.Precedes s')
    (hq : ¬ s.RefusedSince s') (hw : s'.working = some t)
    (href : s'.refuses (.commit :: s'.sent) = none) :
    Ending refused s (.ok (a, t))
      (.ok a, { s'.after .commit with tables := s'.view, working := none }) := by
  have hc := s'.precedes_after .commit
  have hqc : ¬ s'.RefusedSince (s'.after .commit) := by
    rw [refusedSince_after, href]
    exact Bool.false_ne_true
  have hview : s'.view = t := by simp [Server.view, hw]
  subst hview
  have hend : s.Precedes { s'.after .commit with tables := s'.view, working := none } :=
    ⟨h.sent.trans hc.sent, h.refuses, h.endsWhenRefused⟩
  exact .committed hend (fun hr => not_refusedSince_trans h hc hq hqc hr) rfl

end Session
end NetworkPolicy.Database
