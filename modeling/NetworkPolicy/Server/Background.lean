import NetworkPolicy.Server.Cleaner

/-! What the server does from time to time. -/

namespace NetworkPolicy
namespace Service

variable {σ κ : Type} (s : Service σ κ)

/-- One round of the cleaner. -/
def cleanRound : Effect σ κ Unit := do
  match ← s.clean.outcome with
  | .ok _ => return
  | .error e => s.logFailure ["policy-cleaner-poller"] "cycle-failed" e.message (.object [])

/-- One round of samples: the seconds since the start, and the number of policies. -/
def emitRound (uptime : Nat) : Effect σ κ Unit := do
  s.sample (.value "uptime" uptime.toFloat "s")
  let total ← match ← s.all with
    | .ok ps => do
      s.sample (.value "totalPolicies" ps.length.toFloat "")
      pure (some ps.length)
    | .error e => do
      s.logFailure ["metrics-emitter"] "failed-reading-total-policies" e.message (.object [])
      pure none
  s.log ["metrics-emitter"] .debug "emitted"
    (.object [("total_policies", .optional .natural total), ("uptime", .ofFloat uptime.toFloat)])

end Service

namespace World

variable {σ κ : Type}

/-- A round that begins later than this after its time puts the next one off. -/
def tolerance : Nat := 5 * nanosPerMilli

/-- When the round after one is due that was due at `due` and has begun at `begun`. -/
def dueAfter (interval due begun : Nat) : Nat :=
  if due + tolerance < begun then begun + interval else due + interval

theorem lt_dueAfter {interval due begun : Nat} (h : interval ≠ 0) (_ : due ≤ begun) :
    due < dueAfter interval due begun := by
  unfold dueAfter
  split <;> omega

/-- Runs rounds until a time, the first of them at `next`. One that has begun is finished. -/
def repeatUntil (round : Effect σ κ Unit) (interval stop next : Nat) (w : World σ κ) :
    World σ κ :=
  if h : interval = 0 ∨ stop ≤ next ∨ stop ≤ w.now then { w with now := max w.now stop }
  else
    have : next < dueAfter interval next (max next w.now) :=
      lt_dueAfter (fun e => h (.inl e)) (Nat.le_max_left ..)
    have : next < stop := Nat.lt_of_not_le fun e => h (.inr (.inl e))
    repeatUntil round interval stop (dueAfter interval next (max next w.now))
      (round { w with now := max next w.now }).2
  termination_by stop - next
  decreasing_by exact Nat.sub_lt_sub_left ‹_› ‹_›

end World
end NetworkPolicy
