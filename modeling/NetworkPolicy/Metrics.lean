import NetworkPolicy.Store.Basic

/-! Samples of what the server does, and a store that records them for each of its calls. -/

namespace NetworkPolicy

/-- A measured sample. -/
inductive Sample where
  | duration (name : String) (nanos : Nat)
  | counter (name : String)
  | value (name : String) (value : Float) (unit : String)
  deriving DecidableEq, Repr

/-- The sample's name. -/
def Sample.name : Sample → String
  | duration n _ => n
  | counter n => n
  | value n _ _ => n

/-- What samples call a call. -/
def StoreCall.label : StoreCall → String
  | all => "All"
  | create => "Create"
  | delete => "Delete"
  | byGuids => "ByGuids"
  | tags => "Tags"
  | check => "CheckDatabase"

/-- A store that is watched. -/
structure Observed (σ : Type) where
  store : σ
  samples : List Sample := []
  /-- How long the next calls take, in nanoseconds; later ones take no time. -/
  times : List Nat := []

namespace Observed

variable {σ α : Type}

/-- The samples of one call. -/
def samplesOf (call : StoreCall) (nanos : Nat) : Except StoreError α → List Sample
  | .ok _ => [.duration s!"Store{call.label}SuccessTime" nanos]
  | .error _ =>
    [.counter s!"Store{call.label}Error", .duration s!"Store{call.label}ErrorTime" nanos]

/-- Makes a call and records it. -/
def observe (call : StoreCall) (f : σ → Except StoreError α × σ) (o : Observed σ) :
    Except StoreError α × Observed σ :=
  let (r, store) := f o.store
  (r, ⟨store, o.samples ++ samplesOf call (o.times.headD 0) r, o.times.tail⟩)

end Observed

/-- The store with every call recorded. -/
def PolicyStore.observed {σ : Type} (s : PolicyStore σ) : PolicyStore (Observed σ) :=
  s.through Observed.observe

end NetworkPolicy
