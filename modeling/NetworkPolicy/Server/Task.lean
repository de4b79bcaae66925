import NetworkPolicy.Server.World

/-! Steps of the server that end with the first failure. -/

namespace NetworkPolicy

/-- A step that may fail. -/
abbrev Task (σ κ ε α : Type) := ExceptT ε (Effect σ κ) α

namespace Task

variable {σ κ δ ε α β : Type}

/-- The result of a step, its failure said otherwise. -/
def attempt (step : Effect σ κ (Except δ α)) (failure : δ → ε) : Task σ κ ε α := do
  match ← (step : ExceptT ε (Effect σ κ) _) with
  | .ok a => return a
  | .error e => throw (failure e)

/-- The outcome of a step. -/
def outcome (t : Task σ κ ε α) : Effect σ κ (Except ε α) := t.run

@[simp] theorem outcome_throw (e : ε) (w : World σ κ) :
    (outcome (throw e : Task σ κ ε α)).run w = (.error e, w) := rfl

theorem outcome_bind (t : Task σ κ ε α) (f : α → Task σ κ ε β) (w : World σ κ) :
    ((t >>= f).outcome).run w = match t.outcome.run w with
      | (.ok a, w) => (f a).outcome.run w
      | (.error e, w) => (.error e, w) := by
  simp only [outcome, ExceptT.run, bind, ExceptT.bind, ExceptT.mk, StateT.bind, StateT.run,
    ExceptT.bindCont]
  cases t w with
  | mk r w => cases r <;> rfl

theorem outcome_attempt (step : Effect σ κ (Except δ α)) (failure : δ → ε) (w : World σ κ) :
    (outcome (attempt step failure)).run w =
      ((step.run w).1.mapError failure, (step.run w).2) := by
  have h : (outcome (liftM step : Task σ κ ε (Except δ α))).run w = (.ok (step w).1, (step w).2) :=
    rfl
  rw [attempt, outcome_bind, h, StateT.run]
  cases step w with
  | mk r w => cases r <;> rfl

end Task
end NetworkPolicy
