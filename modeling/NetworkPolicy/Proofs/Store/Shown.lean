import NetworkPolicy.Proofs.Store.Allocation
import NetworkPolicy.Proofs.Store.Damage

/-! What a store in a database shows of tables that anyone may have written. -/
namespace NetworkPolicy

namespace Database

variable {ε : Type} {l : TagLength} {r : JoinedRow} {t : Tables}

/-! ### Joins -/

namespace Tables

/-- No two groups and no two destinations have the same id, and policies are held by increasing id. -/
structure Keyed (t : Tables) : Prop where
  groups : (t.groups.map (·.id)).Nodup
  destinations : (t.destinations.map (·.id)).Nodup
  policies : t.policies.Pairwise fun p p' => p.id < p'.id

/-- The row puts a policy together with the groups and the destination that the ids lead to. -/
inductive Joins (t : Tables) : PolicyRow → JoinedRow → Prop where
  | mk {p : PolicyRow} {d : DestinationRow} {source destination : GroupRow} :
      source ∈ t.groups → source.id = p.group → d ∈ t.destinations → d.id = p.destination →
      destination ∈ t.groups → destination.id = d.group →
      Joins t p ⟨source, destination, d.protocol, d.first, d.last⟩

theorem group?_eq_some (ht : t.Keyed) {id : Int} {g : GroupRow} :
    t.group? id = some g ↔ g ∈ t.groups ∧ g.id = id :=
  find?_key_eq_some ht.groups

theorem join_eq_some (ht : t.Keyed) {p : PolicyRow} : t.join p = some r ↔ t.Joins p r := by
  constructor
  · intro h
    simp only [join, bind, Option.bind_eq_some_iff, pure, Option.some.injEq] at h
    obtain ⟨source, hsource, d, hd, destination, hdestination, rfl⟩ := h
    obtain ⟨hsource, hsid⟩ := (group?_eq_some ht).mp hsource
    obtain ⟨hd, hid⟩ := (destination?_eq_some ht.destinations).mp hd
    obtain ⟨hdestination, hdid⟩ := (group?_eq_some ht).mp hdestination
    exact .mk hsource hsid hd hid hdestination hdid
  · intro h
    cases h with
    | mk hsource hsid hd hid hdestination hdid =>
      simp only [join, (group?_eq_some ht).mpr ⟨hsource, hsid⟩,
        (destination?_eq_some ht.destinations).mpr ⟨hd, hid⟩, bind, Option.bind,
        (group?_eq_some ht).mpr ⟨hdestination, hdid⟩]
      rfl

/-- These are all the policies that can be put together, each with its row, in the order of their
ids. -/
structure JoinsTo (t : Tables) (rows : List (PolicyRow × JoinedRow)) : Prop where
  increasing : rows.Pairwise fun e e' => e.1.id < e'.1.id
  mem_iff : ∀ p r, (p, r) ∈ rows ↔ p ∈ t.policies ∧ t.Joins p r

/-- The policies that can be put together, each with its row. -/
def rows (t : Tables) : List (PolicyRow × JoinedRow) :=
  t.policies.filterMap fun p => (t.join p).map (p, ·)

theorem joined_eq_rows (t : Tables) : t.joined = t.rows.map (·.2) := by
  rw [joined, rows, List.map_filterMap]
  refine List.filterMap_congr fun p _ => ?_
  cases t.join p <;> rfl

theorem joinsTo_rows (ht : t.Keyed) : t.JoinsTo t.rows where
  increasing := by
    refine ht.policies.filterMap _ fun p p' hlt e he e' he' => ?_
    obtain ⟨r, -, rfl⟩ := Option.map_eq_some_iff.mp he
    obtain ⟨r', -, rfl⟩ := Option.map_eq_some_iff.mp he'
    exact hlt
  mem_iff := by
    intro p r
    simp only [rows, List.mem_filterMap, Option.map_eq_some_iff, Prod.mk.injEq]
    constructor
    · rintro ⟨q, hq, r', hjoin, rfl, rfl⟩
      exact ⟨hq, (join_eq_some ht).mp hjoin⟩
    · intro ⟨hp, hjoins⟩
      exact ⟨p, hp, r, (join_eq_some ht).mpr hjoins, rfl, rfl⟩

/-- There is one such list. -/
theorem JoinsTo.unique {xs ys : List (PolicyRow × JoinedRow)} (hx : t.JoinsTo xs)
    (hy : t.JoinsTo ys) : xs = ys := by
  have hnodup : ∀ {zs}, t.JoinsTo zs → zs.Nodup := fun h =>
    h.increasing.imp (S := (· ≠ ·)) fun hlt heq => absurd (congrArg (·.1.id) heq) (ne_of_lt hlt)
  have hperm : xs.Perm ys := (List.perm_ext_iff_of_nodup (hnodup hx) (hnodup hy)).mpr fun e =>
    (hx.mem_iff e.1 e.2).trans (hy.mem_iff e.1 e.2).symm
  exact hperm.eq_of_pairwise (fun _ _ _ _ h h' => absurd h (lt_asymm h')) hx.increasing hy.increasing

/-- The groups of every policy that can be put together are assigned. -/
def Named (t : Tables) : Prop :=
  ∀ p ∈ t.policies, ∀ r, t.Joins p r → r.source.guid.isSome ∧ r.destination.guid.isSome

theorem named_iff (ht : t.Keyed) :
    t.Named ↔ ∀ r ∈ t.joined, r.source.guid.isSome ∧ r.destination.guid.isSome := by
  unfold Named joined
  simp only [← join_eq_some ht, List.mem_filterMap]
  constructor
  · intro h r ⟨p, hp, hjoin⟩
    exact h p hp r hjoin
  · intro h p hp r hjoin
    exact h r ⟨p, hp, hjoin⟩

end Tables

/-! ### Answers -/

theorem Server.precedes_rollback (s : Server) : s.Precedes s.rollback := by
  have hafter := s.precedes_after .rollback
  unfold Server.rollback
  rw [Server.receive_eq]
  cases s.refuses (.rollback :: s.sent) with
  | none => exact ⟨hafter.sent, rfl, rfl⟩
  | some why => exact hafter.trans (Session.refuseEnd_spec _).1

/-- The computation answers `y`, or with a request that was refused. -/
def Session.Answers {α : Type} (refused : Refusal → ε) (s : Server) (y : Except ε α)
    (x : Except ε α × Server) : Prop :=
  x.1 = y ∨ s.RefusedSince x.2 ∧ ∃ why, x.1 = .error (refused why)

/-- What is answered for the joined rows, in the errors that every store reports. -/
theorem Session.Answers.readBack {refused : Refusal → ε} {s : Server}
    {read : JoinedRow → Except ε Policy} {x : Except ε (List Policy) × Server}
    (h : Answers refused s (s.tables.joined.mapM read) x) (ht : s.tables.Keyed)
    (hnamed : s.tables.Named) (corrupt : String → ε) {f : ε → StoreError}
    (hread : ∀ r a b, r.source.guid = some a → r.destination.guid = some b →
      read r = (storedPolicy l a b r).mapError fun d => corrupt d.message)
    (hf : (fun cause => f (corrupt cause)) = .corrupt) :
    ReadBack l .corrupt s.tables.joined (x.1.mapError f) ∨
      s.RefusedSince x.2 ∧ ∃ e, x.1.mapError f = .error e := by
  rcases h with hy | ⟨hr, why, hy⟩
  · have hback : ReadBack l corrupt s.tables.joined (s.tables.joined.mapM read) := by
      refine readBack_mapM fun r hr => ?_
      obtain ⟨hsource, hdestination⟩ := (Tables.named_iff ht).mp hnamed r hr
      obtain ⟨a, ha⟩ := Option.isSome_iff_exists.mp hsource
      obtain ⟨b, hb⟩ := Option.isSome_iff_exists.mp hdestination
      exact ⟨a, b, ha, hb, hread r a b ha hb⟩
    rw [hy]
    exact Or.inl (hback.mapError hf)
  · rw [hy]
    exact Or.inr ⟨hr, _, rfl⟩

end Database

namespace SqliteStore

open Database Session

variable {s : Server}

/-- A transaction that leaves the tables as they are answers what its computation comes to. -/
theorem answers_transaction {α : Type} {P : Tables → Prop} {work : Work α} {y : Except SqliteError α}
    (mode : String) (hidle : s.working = none)
    (h : Session.Yields P .ofRefusal work s.tables (y.map (·, s.tables))) :
    Answers .ofRefusal s y ((transaction mode work).run s) := by
  have hout := outcome_start mode "cannot start a transaction within a transaction" hidle h
  unfold transaction Answers
  rw [← bind_assoc, run_orRollback, run_bind]
  generalize (start _ _ _ >>= fun _ => work).run s = x at hout ⊢
  generalize hz : y.map (·, s.tables) = z at hout
  cases hout with
  | @ok a t s' hpre hq htab hw =>
    obtain ⟨b, rfl, hb⟩ := map_eq_ok.mp hz
    obtain rfl := congrArg Prod.fst hb
    dsimp only
    rw [run_bind, run_commit]
    cases hcommit : s'.refuses (.commit :: s'.sent) with
    | none => exact Or.inl rfl
    | some why =>
      have hend := (refuseEnd_spec (s'.after .commit)).1.trans (Server.precedes_rollback _)
      exact Or.inr ⟨(refusedSince_commit hpre hcommit).mono hend, why, rfl⟩
  | @error e s' hpre hq htab =>
    cases y with
    | ok a => cases hz
    | error e' =>
      cases hz
      exact Or.inl rfl
  | @refused z why s' hpre hr htab => exact Or.inr ⟨hr.mono s'.precedes_rollback, why, rfl⟩

theorem answers_readAll (l : TagLength) (hidle : s.working = none) (hpolicies : HasPolicies s.tables) :
    Answers .ofRefusal s (s.tables.joined.mapM (readRow l))
      ((readPolicies l "" (.ok ·.joined)).run s) := by
  refine answers_transaction (P := HasPolicies) _ hidle ?_
  have hquery : (withPolicies s.tables () >>= fun _ => .ok s.tables.joined) =
      .ok s.tables.joined := by
    rw [withPolicies_eq hpolicies]
    rfl
  refine (Session.yields_query _ hquery hpolicies).bindOk fun ht => ?_
  cases s.tables.joined.mapM (readRow l) with
  | ok ps => exact yields_pure ht ps
  | error e => exact yields_throw e

end SqliteStore

namespace PostgresStore

open Database Session

variable {s : Server}

theorem answers_readAll (l : TagLength) (hidle : s.working = none) :
    Answers .ofRefusal s (s.tables.joined.mapM (readRow l))
      ((readPolicies l "" (·.joined)).run s) := by
  have hquery : Ending .ofRefusal s (.ok (s.tables.joined, s.tables))
      ((query (policyColumns ++ "" ++ " ORDER BY p.id") (·.joined)).run s) :=
    ending_query _ hidle rfl
  unfold readPolicies Answers
  rw [run_bind]
  generalize (query _ _).run s = x at hquery ⊢
  generalize hz : (Except.ok (s.tables.joined, s.tables) : Except PostgresError _) = z at hquery
  cases hquery with
  | @committed rows s' hpre hq hidle =>
    have hrows : s.tables.joined = rows := congrArg Prod.fst (Except.ok.inj hz)
    subst hrows
    dsimp only
    cases s.tables.joined.mapM (readRow l) <;> exact Or.inl rfl
  | abandoned hpre hidle htab hx =>
    subst hz
    obtain ⟨hr, why, rfl⟩ := hx.resolve_left fun h => nomatch h
    exact Or.inr ⟨hr, why, rfl⟩

end PostgresStore

namespace OpenStore

open Database

/-- The server of a store in a database. -/
def server? : OpenStore → Option Server
  | memory _ => none
  | sqlite s => some s.server
  | postgres s => some s.server

/-- Asked for all policies, a store in a database answers with what the joined rows read back as, or with
a request that was refused. -/
theorem all_reads_back {o : OpenStore} {server : Server} (hserver : o.server? = some server)
    (hidle : server.working = none) (hpolicies : HasPolicies server.tables)
    (ht : server.tables.Keyed) (hnamed : server.tables.Named) {r : Except StoreError (List Policy)}
    {o' : OpenStore} (hall : store.all o = (r, o')) :
    ReadBack o.tagLength .corrupt server.tables.joined r ∨
      standing.refused o o' ∧ ∃ e, r = .error e := by
  rcases o with s | s | s
  · cases hserver
  · cases hserver
    obtain ⟨rfl, rfl⟩ := Prod.mk.inj hall
    refine (SqliteStore.answers_readAll s.tagLength hidle hpolicies).readBack ht hnamed .corrupt
      (fun r a b ha hb => ?_) rfl
    simp only [SqliteStore.readRow, ha, hb, tagLength]
  · cases hserver
    obtain ⟨rfl, rfl⟩ := Prod.mk.inj hall
    refine (PostgresStore.answers_readAll s.tagLength hidle).readBack ht hnamed .corrupt
      (fun r a b ha hb => ?_) rfl
    simp only [PostgresStore.readRow, ha, hb, tagLength]

/-- Whatever the tables hold, a store in a database shows all policies exactly if no row that joins holds a
negative group or a number that is no port, and then with the very numbers that are stored. Else it reports
the first such number, in the order of the policies' ids and in a row first the source, then the
destination, the first port and the last. Also where requests are refused no other number is shown. -/
theorem all_shows_stored {o : OpenStore} {server : Server} (hserver : o.server? = some server)
    (hidle : server.working = none) (hpolicies : HasPolicies server.tables)
    (ht : server.tables.Keyed) (hnamed : server.tables.Named) :
    ∃ rows, server.tables.JoinsTo rows ∧ ∀ r o', store.all o = (r, o') →
      (∀ ps, r = .ok ps → List.Forall₂ (JoinedRow.Carries o.tagLength) (rows.map (·.2)) ps) ∧
      (¬ standing.refused o o' →
        ((∃ ps, r = .ok ps) ↔ ∀ e ∈ rows, e.2.Intact) ∧
        ∀ d ds, (rows.map (·.2)).flatMap JoinedRow.damages = d :: ds →
          r = .error (.corrupt d.message)) := by
  refine ⟨server.tables.rows, Tables.joinsTo_rows ht, fun r o' hall => ?_⟩
  have hback := all_reads_back hserver hidle hpolicies ht hnamed hall
  rw [Tables.joined_eq_rows] at hback
  constructor
  · intro ps hps
    subst hps
    rcases hback with hback | ⟨-, e, he⟩
    · cases hback with
      | ok hps => exact hps
    · cases he
  · intro hq
    replace hback := hback.resolve_right fun h => hq h.1
    refine ⟨by rw [hback.ok_iff, List.forall_mem_map], fun d ds hd => ?_⟩
    exact hback.eq_error hd

/-- Numbers up to the last port and beyond the width of a tag are shown as they are. Of a policy with two
damages the first is reported, though policies before it can be shown or lead nowhere. -/
theorem all_shows_stored_late_damage :
    let good : Tables := {
      groups := [⟨0, some "a"⟩, ⟨2, none⟩, ⟨65536, some ""⟩]
      destinations := [⟨3, 65536, 65535, 0, "any"⟩]
      policies := [⟨-1, 0, 3⟩, ⟨4, 1, 3⟩]
      hasPolicies := true }
    let bad : Tables := { good with
      groups := ⟨-7, some "b"⟩ :: good.groups
      destinations := good.destinations ++ [⟨8, -7, 80, 65536, "tcp"⟩]
      policies := good.policies ++ [⟨9, 0, 8⟩] }
    let p : Policy := ⟨⟨"a", "00"⟩, ⟨"", "10000", "any", ⟨65535, 0⟩⟩⟩
    good.Keyed ∧ good.Named ∧
      (∀ e ∈ good.rows, e.2.Intact) ∧
      (store.all (postgres ⟨.oneByte, 4500, { tables := good }⟩)).1 = .ok [p] ∧
      List.Forall₂ (JoinedRow.Carries .oneByte) (good.rows.map (·.2)) [p] ∧
      bad.Keyed ∧ bad.Named ∧
      (store.all (sqlite ⟨.oneByte, { tables := bad }⟩)).1 =
        .error (.corrupt "negative group id -7") := by
  intro good bad p
  have hgood : good.Keyed := ⟨by decide, by decide, by decide⟩
  have hbad : bad.Keyed := ⟨by decide, by decide, by decide⟩
  have hgoodNamed : good.Named := (Tables.named_iff hgood).mpr (by decide)
  have hbadNamed : bad.Named := (Tables.named_iff hbad).mpr (by decide)
  have hq : ∀ o : OpenStore, o.unhindered = o → ∀ o', ¬ standing.refused o o' :=
    fun o ho o' => ho ▸ not_refused_unhindered o'
  obtain ⟨rows, hrows, hreads⟩ := all_shows_stored (o := postgres ⟨.oneByte, 4500, { tables := good }⟩)
    rfl rfl rfl hgood hgoodNamed
  obtain rfl := hrows.unique (Tables.joinsTo_rows hgood)
  obtain ⟨rows, hrows, hreads'⟩ := all_shows_stored (o := sqlite ⟨.oneByte, { tables := bad }⟩)
    rfl rfl rfl hbad hbadNamed
  obtain rfl := hrows.unique (Tables.joinsTo_rows hbad)
  have hshown : (store.all (postgres ⟨.oneByte, 4500, { tables := good }⟩)).1 = .ok [p] := by
    decide +kernel
  obtain ⟨hcarries, hdone⟩ := hreads _ _ rfl
  refine ⟨hgood, hgoodNamed, (hdone (hq _ rfl _)).1.mp ⟨_, hshown⟩, hshown, hcarries _ hshown, hbad,
    hbadNamed, ?_⟩
  have hdamages : (bad.rows.map (·.2)).flatMap JoinedRow.damages =
      [.negativeGroup (-7), .portOutOfRange 65536] := by decide
  exact ((hreads' _ _ rfl).2 (hq _ rfl _)).2 _ _ hdamages

end OpenStore
end NetworkPolicy
