import NetworkPolicy.Metrics

/-! Layers around a store: handles through which it is shared, and decorators that report its calls. A
layer offers what the store offers: a write without a time limit is no call of its own. -/

namespace NetworkPolicy

/-- What may stand around a store. -/
inductive Layer where
  /-- Passes every call on. -/
  | handle
  /-- Passes every call on and reports it to a recorder, which other layers may report to as well. -/
  | meter (recorder : Nat)
  deriving DecidableEq, Repr

/-- The recorder that the layer reports to. -/
def Layer.recorder? : Layer → Option Nat
  | handle => none
  | meter k => some k

/-- A store whose calls are reported. -/
structure Metered (σ : Type) where
  store : σ
  /-- The samples in the order of their sending, each with the recorder it was sent to. -/
  sent : List (Nat × Sample) := []
  /-- How long the next reported calls take, in nanoseconds; later ones take no time. -/
  times : List Nat := []

namespace Metered

variable {σ α : Type}

/-- Makes a call that nobody reports. -/
def pass (f : σ → Except StoreError α × σ) (m : Metered σ) : Except StoreError α × Metered σ :=
  let (r, store) := f m.store
  (r, { m with store := store })

/-- Reports a call that has been answered. -/
def report (recorder : Nat) (call : StoreCall) (r : Except StoreError α) (m : Metered σ) :
    Metered σ :=
  { m with
    sent := m.sent ++ (Observed.samplesOf call (m.times.headD 0) r).map (recorder, ·)
    times := m.times.tail }

end Metered

/-- Makes a call through the layer. -/
def Layer.make {σ α : Type} : Layer → StoreCall →
    (Metered σ → Except StoreError α × Metered σ) → Metered σ → Except StoreError α × Metered σ
  | handle, _, f => f
  | meter k, call, f => fun m =>
    let (r, m) := f m
    (r, m.report k call r)

/-- The store within layers, the outermost first. -/
def PolicyStore.within {σ : Type} (s : PolicyStore σ) : List Layer → PolicyStore (Metered σ)
  | [] => s.through fun _ => Metered.pass
  | l :: ls => (s.within ls).through l.make

end NetworkPolicy
