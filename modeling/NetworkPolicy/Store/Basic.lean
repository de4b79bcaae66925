import NetworkPolicy.Policy.Basic
import NetworkPolicy.Policy.Tag

/-! What every policy store offers: six calls, each of which may fail and may change the store. -/

namespace NetworkPolicy

/-- Why a store call failed. -/
inductive StoreError where
  | io (cause : String)
  | db (cause : String)
  | corrupt (cause : String)
  | invalid (cause : String)
  | capacity (cause : String)
  | timeout (millis : Nat)
  deriving DecidableEq, Repr

/-- The error in words. -/
def StoreError.message : StoreError → String
  | io c => s!"policy store io error: {c}"
  | db c => s!"policy store db error: {c}"
  | corrupt c => s!"policy store corruption: {c}"
  | invalid c => s!"policy store invalid data: {c}"
  | capacity c => s!"failed to find available tag: {c}"
  | timeout ms => s!"policy store operation timed out after {ms} ms"

/-- Nanoseconds in a millisecond. -/
def nanosPerMilli : Nat := 1000000

/-- A moment after which a write must not be committed. Times are in nanoseconds. -/
structure Deadline where
  budget : Nat
  /-- None when the clock cannot express it: the deadline never passes. -/
  expiry : Option Nat
  deriving DecidableEq, Repr

namespace Deadline

/-- The latest moment that the clock can express. -/
def clockEnd : Nat := Nat.pow 2 63 * 1000000000

/-- The deadline `budget` after `now`. -/
def after (now budget : Nat) : Deadline :=
  ⟨budget, if now + budget < clockEnd then some (now + budget) else none⟩

def expired (d : Deadline) (now : Nat) : Bool := d.expiry.any (· ≤ now)

/-- Time left at `now`. -/
def remaining (d : Deadline) (now : Nat) : Nat := d.expiry.elim d.budget (· - now)

/-- The budget in whole milliseconds. -/
def millis (d : Deadline) : Nat := d.budget / nanosPerMilli

end Deadline

/-- A deadline and the moments at which the write under it reads the clock: before its batch, when
it passes the remaining time on, and before it commits. -/
structure TimeLimit where
  deadline : Deadline
  opening : Nat
  passing : Nat
  closing : Nat
  deriving DecidableEq, Repr

/-- A limit read at one moment only. -/
def TimeLimit.at (d : Deadline) (now : Nat) : TimeLimit := ⟨d, now, now, now⟩

/-- A kind of store with states in `σ`. Creating and deleting take a time limit, if any. -/
structure PolicyStore (σ : Type) where
  all : σ → Except StoreError (List Policy) × σ
  create : List Policy → Option TimeLimit → σ → Except StoreError Unit × σ
  delete : List Policy → Option TimeLimit → σ → Except StoreError Unit × σ
  /-- The policies with a source among the first or a destination among the second. -/
  byGuids : List String → List String → σ → Except StoreError (List Policy) × σ
  /-- The assigned tags by increasing group. -/
  tags : σ → Except StoreError (List Tag) × σ
  /-- Whether the store can be reached. -/
  check : σ → Except StoreError Unit × σ

/-- The calls that every store offers. -/
inductive StoreCall where
  | all
  | create
  | delete
  | byGuids
  | tags
  | check
  deriving DecidableEq, Repr

/-- The store within states of another kind: `make` says how each call is made there, given what it
does to the store. -/
def PolicyStore.through {σ τ : Type} (s : PolicyStore σ)
    (make : {α : Type} → StoreCall → (σ → Except StoreError α × σ) →
      τ → Except StoreError α × τ) : PolicyStore τ where
  all := make .all s.all
  create ps limit := make .create (s.create ps limit)
  delete ps limit := make .delete (s.delete ps limit)
  byGuids sources destinations := make .byGuids (s.byGuids sources destinations)
  tags := make .tags s.tags
  check := make .check s.check

end NetworkPolicy
