import NetworkPolicy.Proofs.Store.Opened
import NetworkPolicy.Proofs.Store.Soundness

/-! What stays in an SQLite file: its tables are sound after every run, opening it again finds what was
stored, and a file of another version is left as it is. -/
namespace NetworkPolicy

open Database

/-! ### The version of the tables -/

namespace Database.Tables

variable {ε : Type} {full : ε} {t t' : Tables} {p : Policy} {ps : List Policy}

end Database.Tables

namespace SqliteStore

variable {α : Type} {s s' : SqliteStore} {m : MemoryStore} {l : TagLength} {n : Nat}
  {server : Server} {t t' : Tables} {work : Work α} {x : Except SqliteError (α × Tables)}

/-! ### Calls -/

/-- What the second store has as the first had it: the policies and where they lead to, row by row,
the groups of applications, and what is listed but for the tags. -/
structure Kept (s s' : SqliteStore) : Prop where
  policies : s'.server.tables.policies = s.server.tables.policies
  destinations : s'.server.tables.destinations = s.server.tables.destinations
  assigned : s'.server.tables.assigned = s.server.tables.assigned
  listed : ∃ ps ps', (OpenStore.sqlite s).policies = .ok ps ∧
    (OpenStore.sqlite s').policies = .ok ps' ∧
    ps'.map Policy.withoutTags = ps.map Policy.withoutTags

theorem openOn_error {e : SqliteError} (hserver : server.Transactional)
    (h : openOn l n server = (.error e, s)) : s.server.tables = server.tables ∧
      (prepared n server.tables = .error e ∨ ∃ cause, e = .db cause) := by
  obtain ⟨-, hend⟩ := ending_openOn hserver h
  generalize prepared n server.tables = x at hend ⊢
  cases hend with
  | abandoned _ _ htables hx => exact ⟨htables, hx.imp_right fun ⟨_, why, he⟩ => ⟨why.text, he⟩⟩

end SqliteStore
end NetworkPolicy
