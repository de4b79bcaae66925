import NetworkPolicy.Store.Memory
import NetworkPolicy.Store.Postgres
import NetworkPolicy.Store.Sqlite

/-! A store of any of the three kinds. -/

namespace NetworkPolicy

inductive OpenStore where
  | memory (s : MemoryStore)
  | sqlite (s : SqliteStore)
  | postgres (s : PostgresStore)

namespace OpenStore

/-- Makes the call that every kind of store offers. -/
def call {α : Type} (f : {σ : Type} → PolicyStore σ → σ → α × σ) : OpenStore → α × OpenStore
  | memory s =>
    let (a, s) := f MemoryStore.store s
    (a, memory s)
  | sqlite s =>
    let (a, s) := f SqliteStore.store s
    (a, sqlite s)
  | postgres s =>
    let (a, s) := f PostgresStore.store s
    (a, postgres s)

/-- The calls of a store of any kind. -/
def store : PolicyStore OpenStore where
  all := call fun p => p.all
  create ps limit := call fun p => p.create ps limit
  delete ps limit := call fun p => p.delete ps limit
  byGuids sources destinations := call fun p => p.byGuids sources destinations
  tags := call fun p => p.tags
  check := call fun p => p.check

end OpenStore
end NetworkPolicy
