import NetworkPolicy.Proofs.Store.Postgres
import NetworkPolicy.Proofs.Store.Sqlite
import NetworkPolicy.Store.Opened

/-! A store of any of the three kinds stands for a store in memory in every state that it can get
into, also when it is opened again on what an earlier one committed. -/
namespace NetworkPolicy.OpenStore

/-- A store of any kind stands for what its own kind stands for. -/
def standing : Standing OpenStore where
  stands
    | memory s, m => MemoryStore.standing.stands s m
    | sqlite s, m => SqliteStore.standing.stands s m
    | postgres s, m => PostgresStore.standing.stands s m
  valid := by
    rintro (s | s | s) m h
    · exact MemoryStore.standing.valid h
    · exact SqliteStore.standing.valid h
    · exact PostgresStore.standing.valid h
  later
    | memory s, memory s' => MemoryStore.standing.later s s'
    | sqlite s, sqlite s' => SqliteStore.standing.later s s'
    | postgres s, postgres s' => PostgresStore.standing.later s s'
    | _, _ => False
  refused
    | memory s, memory s' => MemoryStore.standing.refused s s'
    | sqlite s, sqlite s' => SqliteStore.standing.refused s s'
    | postgres s, postgres s' => PostgresStore.standing.refused s s'
    | _, _ => False
  early
    | memory s, l => MemoryStore.standing.early s l
    | sqlite s, l => SqliteStore.standing.early s l
    | postgres s, l => PostgresStore.standing.early s l

variable {α : Type} {m : MemoryStore} {ideal : Except StoreError.Kind (α × MemoryStore)}

theorem ended_memory {s : MemoryStore} {x : Except StoreError α × MemoryStore}
    (h : MemoryStore.standing.Ended s m ideal x) :
    standing.Ended (memory s) m ideal (x.1, memory x.2) :=
  h.map (T := standing) (f := memory) (fun _ _ h => h) (fun _ _ h => h) fun _ _ => Iff.rfl

theorem ended_sqlite {s : SqliteStore} {x : Except StoreError α × SqliteStore}
    (h : SqliteStore.standing.Ended s m ideal x) :
    standing.Ended (sqlite s) m ideal (x.1, sqlite x.2) :=
  h.map (T := standing) (f := sqlite) (fun _ _ h => h) (fun _ _ h => h) fun _ _ => Iff.rfl

theorem ended_postgres {s : PostgresStore} {x : Except StoreError α × PostgresStore}
    (h : PostgresStore.standing.Ended s m ideal x) :
    standing.Ended (postgres s) m ideal (x.1, postgres x.2) :=
  h.map (T := standing) (f := postgres) (fun _ _ h => h) (fun _ _ h => h) fun _ _ => Iff.rfl

theorem realizes : standing.Realizes store where
  all := by
    rintro (s | s | s) m hs
    · exact ended_memory (MemoryStore.realizes.all hs)
    · exact ended_sqlite (SqliteStore.realizes.all hs)
    · exact ended_postgres (PostgresStore.realizes.all hs)
  write := by
    rintro (s | s | s) m hs (_ | _) ps limit
    · exact ended_memory (MemoryStore.realizes.write hs .create ps limit)
    · exact ended_memory (MemoryStore.realizes.write hs .delete ps limit)
    · exact ended_sqlite (SqliteStore.realizes.write hs .create ps limit)
    · exact ended_sqlite (SqliteStore.realizes.write hs .delete ps limit)
    · exact ended_postgres (PostgresStore.realizes.write hs .create ps limit)
    · exact ended_postgres (PostgresStore.realizes.write hs .delete ps limit)
  byGuids := by
    rintro (s | s | s) m hs sources destinations
    · exact ended_memory (MemoryStore.realizes.byGuids hs sources destinations)
    · exact ended_sqlite (SqliteStore.realizes.byGuids hs sources destinations)
    · exact ended_postgres (PostgresStore.realizes.byGuids hs sources destinations)
  tags := by
    rintro (s | s | s) m hs
    · exact ended_memory (MemoryStore.realizes.tags hs)
    · exact ended_sqlite (SqliteStore.realizes.tags hs)
    · exact ended_postgres (PostgresStore.realizes.tags hs)
  check := by
    rintro (s | s | s) m hs
    · exact ended_memory (MemoryStore.realizes.check hs)
    · exact ended_sqlite (SqliteStore.realizes.check hs)
    · exact ended_postgres (PostgresStore.realizes.check hs)

/-! ### Reachable states -/

/-- The states that stores can get into: opened empty or on what an earlier store committed, and
after any calls. Servers may refuse any request. -/
inductive Reachable : OpenStore → Prop where
  | memory (l : TagLength) (size : Nat) : Reachable (.memory (.empty l size))
  | sqlite {server : Database.Server} {l : TagLength} {n : Nat} {s : SqliteStore} :
      server.tables = {} → server.Transactional → SqliteStore.openOn l n server = (.ok (), s) →
      Reachable (.sqlite s)
  | postgres {server : Database.Server} {c : PostgresConfig} {s : PostgresStore} :
      server.tables = {} → server.Transactional → PostgresStore.openOn c server = (.ok (), s) →
      Reachable (.postgres s)
  | sqliteAgain {s s' : SqliteStore} {server : Database.Server} {l : TagLength} {n : Nat} :
      Reachable (.sqlite s) → server.tables = s.server.tables → server.Transactional →
      SqliteStore.openOn l n server = (.ok (), s') → Reachable (.sqlite s')
  | postgresAgain {s s' : PostgresStore} {server : Database.Server} {c : PostgresConfig} :
      Reachable (.postgres s) → server.tables = s.server.tables → server.Transactional →
      PostgresStore.openOn c server = (.ok (), s') → Reachable (.postgres s')
  | answer {o : OpenStore} (r : StoreRequest) : Reachable o → Reachable (store.answer r o).2

/-- Every state that a store can get into stands for a store in memory. -/
theorem Reachable.stands {o : OpenStore} (h : o.Reachable) : ∃ m, standing.stands o m := by
  induction h with
  | memory l size => exact ⟨_, rfl, MemoryStore.valid_empty l size⟩
  | @sqlite server l n s htables hserver h =>
    exact ⟨_, (SqliteStore.stands_of_openOn hserver (MemoryStore.valid_empty l 0)
      (htables ▸ Database.Tables.represents_empty l) (Or.inl (htables ▸ rfl)) h).1⟩
  | @postgres server c s htables hserver h =>
    exact ⟨_, (PostgresStore.stands_of_openOn hserver (MemoryStore.valid_empty .oneByte 0)
      (htables ▸ Database.Tables.represents_empty .oneByte) h).1⟩
  | sqliteAgain _ htables hserver h ih =>
    obtain ⟨m, hm⟩ := ih
    exact ⟨_, (SqliteStore.stands_of_openOn hserver hm.valid (htables ▸ hm.represents)
      (Or.inr (htables ▸ hm.hasPolicies)) h).1⟩
  | postgresAgain _ htables hserver h ih =>
    obtain ⟨m, hm⟩ := ih
    exact ⟨_, (PostgresStore.stands_of_openOn hserver hm.valid (htables ▸ hm.represents) h).1⟩
  | answer r _ ih =>
    obtain ⟨m, hm⟩ := ih
    obtain ⟨m', hm', -⟩ := realizes.answer hm r
    exact ⟨m', hm'⟩

theorem Reachable.answers {o : OpenStore} (h : o.Reachable) (rs : List StoreRequest) :
    (store.answers rs o).2.Reachable :=
  PolicyStore.answers_induction (fun r _ hr => .answer r hr) rs h

/-! ### Listings -/

/-- The store when its server refuses nothing. -/
def unhindered : OpenStore → OpenStore
  | memory s => memory s
  | sqlite s => sqlite { s with server := { s.server with refuses := fun _ => none } }
  | postgres s => postgres { s with server := { s.server with refuses := fun _ => none } }

/-- The policies that the store lists when nothing is refused. -/
def policies (o : OpenStore) : Except StoreError (List Policy) := (store.all o.unhindered).1

/-- The tags that the store lists when nothing is refused. -/
def tags (o : OpenStore) : Except StoreError (List Tag) := (store.tags o.unhindered).1

variable {o : OpenStore}

theorem stands_unhindered (h : standing.stands o m) : standing.stands o.unhindered m := by
  rcases o with s | s | s
  · exact h
  · exact ⟨h.idle, Or.inr fun _ => ⟨rfl, rfl⟩, h.hasPolicies, h.represents, h.valid, h.tagLength⟩
  · exact ⟨h.idle, Or.inr fun _ => ⟨rfl, rfl⟩, h.hasPolicies, h.represents, h.valid, h.tagLength⟩

theorem not_refused_unhindered (o' : OpenStore) : ¬ standing.refused o.unhindered o' := by
  rcases o with s | s | s <;> rcases o' with s' | s' | s'
  case sqlite.sqlite =>
    rintro ⟨log, -, -, h⟩
    cases h
  case postgres.postgres =>
    rintro ⟨log, -, -, h⟩
    cases h
  all_goals exact not_false

/-- What would be answered in memory is answered when nothing is refused. -/
theorem ended_unhindered {a : α} {x : Except StoreError α × OpenStore}
    (h : standing.Ended o.unhindered m (.ok (a, m)) x) : x.1 = .ok a :=
  (h.read (not_refused_unhindered _)).1

/-- Whether the store is this one in memory. -/
def isMemory (m : MemoryStore) : OpenStore → Bool
  | memory s => s = m
  | _ => false

theorem eq_memory (h : isMemory m o = true) : o = memory m := by
  cases o with
  | memory s => exact congrArg memory (of_decide_eq_true h)
  | sqlite => cases h
  | postgres => cases h

theorem policies_eq (h : standing.stands o m) : o.policies = .ok m.policies :=
  ended_unhindered (realizes.all (stands_unhindered h))

theorem tags_eq (h : standing.stands o m) : o.tags = .ok m.tags :=
  ended_unhindered (realizes.tags (stands_unhindered h))

/-- The tags that a store lists are told apart, and those of the same width are listed in their order,
also when groups were assigned while the store was open with another length of tags. -/
theorem Reachable.tags_ordered (h : o.Reachable) : ∃ ts, o.tags = .ok ts ∧ ts.Pairwise fun t t' =>
    t.tag ≠ t'.tag ∧ (t.tag.length = t'.tag.length → t.tag < t'.tag) := by
  obtain ⟨m, hm⟩ := h.stands
  exact ⟨m.tags, tags_eq hm, (standing.valid hm).tags_ordered⟩

end NetworkPolicy.OpenStore
