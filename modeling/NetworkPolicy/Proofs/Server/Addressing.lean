import NetworkPolicy.Proofs.Server.Relisting
import NetworkPolicy.Proofs.Store.Undisturbed
import NetworkPolicy.Proofs.Url.Form

/-! A query addresses the applications that it names, whatever their names are made of, and no others.
-/
namespace NetworkPolicy

open Http (Request Response)

/-! ### Names in a query -/

/-- A query whose parameter `id` has names, joined with commas. -/
def naming (before : List (String × String)) (ids : List String) (after : List (String × String)) :
    List UInt8 :=
  Percent.bytes (Form.render (before ++ ("id", ",".intercalate ids) :: after))

variable {before after : List (String × String)} {ids : List String} {query : Option (List UInt8)}

theorem requestedIds_some (bs : List UInt8) : requestedIds (some bs) =
    ((Form.parse bs).find? (·.1 == "id")).map fun p => commaParts p.2 := by
  rw [requestedIds, Option.bind_eq_bind, Option.bind_some]
  cases (Form.parse bs).find? (·.1 == "id") <;> rfl

/-- The names are found in the query, if no other `id` comes before. -/
theorem requestedIds_naming (hsome : ids ≠ []) (hcomma : ∀ i ∈ ids, ',' ∉ i.toList)
    (hbefore : ∀ p ∈ before, p.1 ≠ "id") :
    requestedIds (some (naming before ids after)) = some ids := by
  have hnone : before.find? (·.1 == "id") = none :=
    List.find?_eq_none.mpr fun p hp => by simpa using hbefore p hp
  rw [requestedIds_some, naming, Form.parse_render, List.find?_append, hnone, Option.none_or,
    List.find?_cons_of_pos (by rfl), Option.map_some, commaParts_names hsome hcomma]

theorem requestedIds_eq_none (h : ∀ bs ∈ query, ∀ p ∈ Form.parse bs, p.1 ≠ "id") :
    requestedIds query = none := by
  cases query with
  | none => rfl
  | some bs =>
    have hnone : (Form.parse bs).find? (·.1 == "id") = none :=
      List.find?_eq_none.mpr fun p hp => by simpa using h bs rfl p hp
    rw [requestedIds_some, hnone, Option.map_none]

theorem Policy.filter_isAsked_some (h : requestedIds query = some ids) (ps : List Policy) :
    ps.filter (·.isAsked query) =
      ps.filter fun p => p.source.id ∈ ids ∨ p.destination.id ∈ ids := by
  refine List.filter_congr fun p _ => ?_
  rw [Policy.isAsked, h, Bool.eq_iff_iff, Bool.or_eq_true, List.contains_iff_mem,
    List.contains_iff_mem, decide_eq_true_iff]

/-! ### What is read and told -/

/-- The path of the policies for the parts of the platform itself. -/
def internalPath : List UInt8 := Percent.bytes "/networking/v1/internal/policies".toList

theorem route_internalPath :
    route .internal internalPath = .route { get := some .listInternally } := by
  decide +kernel

namespace Service

variable {κ : Type} {s : Service OpenStore κ} {m : MemoryStore} {w w' w₁ : World OpenStore κ}
  {r : Request} {x : Except StoreError (List Policy)}

/-- Why nothing may be read: the call came too late to the store, or was refused there. -/
def Hindered (s : Service OpenStore κ) (w w' : World OpenStore κ) : Prop :=
  s.deadline < w.latency ∨ OpenStore.standing.refused w.store w'.store

/-- The query reads these policies: a caller is told of those of them that the caller sees, and the
platform of all. It is told only that it failed when something is in the way. -/
structure Reads (s : Service OpenStore κ) (query : Option (List UInt8)) (w : World OpenStore κ)
    (found : List Policy) : Prop where
  read : ∀ {x w'}, (s.queried query).run w = (x, w') →
    w'.store.ListsAs w.store ∧ (x = .ok found ∨ (∃ e, x = .error e) ∧ s.Hindered w w')
  external : ∀ {v : Version} {r : Request} {caller : Caller} {k k' : κ} {seen : List Policy}
    {response : Response} {w' : World OpenStore κ},
    r.method = "GET" → r.path = policiesPath v → r.query = query →
    authenticate s.collaborators (.write s.limits.scopeChecking) (r.header? "authorization")
      w.collaborators = (.ok caller, k) →
    (visible s.collaborators s.limits.batchSize caller found).outcome k = (.ok seen, k') →
    (s.respond .external r).run w = (response, w') →
    response = .json (Body.encode v seen) ∨ response.status = 500 ∧ s.Hindered w w'
  internal : ∀ {r : Request} {response : Response} {w' : World OpenStore κ},
    r.method = "GET" → r.path = internalPath → r.query = query →
    (s.respond .internal r).run w = (response, w') →
    response = .json (Body.encodeTagged found) ∨ response.status = 500 ∧ s.Hindered w w'

theorem queried_run (hr : OpenStore.standing.Realizes s.store)
    (hs : OpenStore.standing.stands w.store m) (hrun : (s.queried query).run w = (x, w')) :
    w'.store.ListsAs w.store ∧ (x = .ok (m.policies.filter (·.isAsked query)) ∨
      (∃ e, x = .error e) ∧ s.Hindered w w') := by
  obtain ⟨hs', hstored⟩ := queried_ended hr hs hrun
  refine ⟨OpenStore.listsAs hs' hs, ?_⟩
  cases x with
  | ok ps => exact Or.inl (congrArg _ (hstored ps rfl))
  | error e =>
    obtain ⟨c, f, hread, hended⟩ := exists_queried_read hr hs query
    exact Or.inr ⟨⟨e, rfl⟩, read_error hended (hread ▸ hrun)⟩

theorem listInternally_answered (hmethod : r.method = "GET") (hpath : r.path = internalPath)
    (hread : (s.queried r.query).run w = (x, w₁)) :
    ∃ w', (s.respond .internal r).run w = (match x with
      | .ok ps => .json (Body.encodeTagged ps)
      | .error _ => Failure.response ⟨500, "policies-index-internal", "database read failed"⟩, w') ∧
        w'.store = w₁.store := by
  obtain ⟨w₂, hhandle, hquiet₂⟩ : ∃ w₂, (s.handle .listInternally r).outcome.run w = (match x with
      | .ok ps => .ok (.json (Body.encodeTagged ps))
      | .error _ => .error ⟨500, "policies-index-internal", "database read failed"⟩, w₂) ∧
        w₁.Quiet w₂ := by
    rw [handle, listInternally]
    cases x with
    | ok ps => exact ⟨w₁, Task.outcome_bind_ok (require_ok hread) _, rfl, rfl⟩
    | error e => exact Task.fails_bind (require_error hread) _
  obtain ⟨w', hanswer, hquiet⟩ := respond_get (hpath ▸ route_internalPath) rfl hmethod hhandle
  refine ⟨w', ?_, (hquiet₂.trans hquiet).store⟩
  rw [hanswer]
  cases x <;> rfl

/-- What a query reads is what it asks for. -/
theorem reads_asked (hr : OpenStore.standing.Realizes s.store)
    (hs : OpenStore.standing.stands w.store m) (query : Option (List UInt8)) :
    s.Reads query w (m.policies.filter (·.isAsked query)) where
  read hrun := queried_run hr hs hrun
  external := by
    rintro v r caller k k' seen response w' hmethod hpath rfl hauth hvisible hrun
    have hidentified := Identified.mk v.ofName?_name hauth
    have hs₁ : OpenStore.standing.stands { w with collaborators := k }.store m := hs
    rcases hread : (s.queried r.query).run { w with collaborators := k } with ⟨x, w₁⟩
    obtain ⟨-, rfl | ⟨⟨e, rfl⟩, hhindered⟩⟩ := queried_run hr hs₁ hread
    · have hk : w₁.collaborators = k := queried_asks_nobody hread
      rw [← hk] at hvisible
      obtain ⟨w₂, hanswer, -⟩ := list_answered hmethod hpath hidentified hread hvisible
      obtain ⟨rfl, -⟩ := Prod.mk.inj (hrun.symm.trans hanswer)
      exact Or.inl rfl
    · obtain ⟨w₂, hanswer, hstore⟩ := list_unanswered hmethod hpath hidentified hread
      obtain ⟨rfl, rfl⟩ := Prod.mk.inj (hrun.symm.trans hanswer)
      exact Or.inr ⟨rfl, hhindered.imp_right fun h => hstore ▸ h⟩
  internal := by
    rintro r response w' hmethod hpath rfl hrun
    rcases hread : (s.queried r.query).run w with ⟨x, w₁⟩
    obtain ⟨w₂, hanswer, hstore⟩ := listInternally_answered hmethod hpath hread
    obtain ⟨rfl, rfl⟩ := Prod.mk.inj (hrun.symm.trans hanswer)
    obtain ⟨-, rfl | ⟨⟨e, rfl⟩, hhindered⟩⟩ := queried_run hr hs hread
    · exact Or.inl rfl
    · exact Or.inr ⟨rfl, hhindered.imp_right fun h => hstore ▸ h⟩

/-- In every state that a store can get into: a query whose first `id` has names without commas reads
just those of the listed policies that have one of the names at one of their ends, as they are listed,
whatever other parameters there are. A query without an `id` reads all of them. -/
theorem query_addresses (hstore : s.store = OpenStore.store) (hw : w.store.Reachable) :
    ∃ ps, w.store.policies = .ok ps ∧
      (∀ before ids after, ids ≠ [] → (∀ i ∈ ids, ',' ∉ i.toList) → (∀ p ∈ before, p.1 ≠ "id") →
        s.Reads (some (naming before ids after)) w
          (ps.filter fun p => p.source.id ∈ ids ∨ p.destination.id ∈ ids)) ∧
      ∀ query, (∀ bs ∈ query, ∀ p ∈ Form.parse bs, p.1 ≠ "id") → s.Reads query w ps := by
  have hr : OpenStore.standing.Realizes s.store := hstore ▸ OpenStore.realizes
  obtain ⟨m, hs⟩ := hw.stands
  refine ⟨m.policies, OpenStore.policies_eq hs, ?_, ?_⟩
  · intro before ids after hsome hcomma hbefore
    have hreads := reads_asked hr hs (some (naming before ids after))
    rwa [Policy.filter_isAsked_some (requestedIds_naming hsome hcomma hbefore)] at hreads
  · intro query hnone
    have hreads := reads_asked hr hs query
    rwa [Policy.filter_isAsked_of_none (requestedIds_eq_none hnone)] at hreads

/-- One name is written with a space and characters that mean something in a query, and another is
empty; what stands in another parameter and in a second `id` is not asked for. -/
theorem query_addresses_odd_names :
    let p : Policy := ⟨⟨"a b&=é", "01"⟩, ⟨"c", "02", "tcp", ⟨80, 81⟩⟩⟩
    let q : Policy := ⟨⟨"c", "02"⟩, ⟨"d", "03", "udp", ⟨53, 53⟩⟩⟩
    let w := { morning with
      store := (OpenStore.store.write .create [p, q] none morning.store).2 }
    let query := naming [("x", "id=c")] ["a b&=é", ""] [("id", "c")]
    let r : Request := { submission [] with method := "GET" }
    w.store.Reachable ∧ w.store.policies = .ok [p, q] ∧
      ((adminDesk.queried (some query)).run w).1 = .ok [p] ∧
      ((adminDesk.respond .external { r with query := some query }).run w).1 =
        .json (Body.encode .v1 [p]) ∧
      ((adminDesk.respond .internal { r with path := internalPath, query := some query }).run w).1 =
        .json (Body.encodeTagged [p]) ∧
      ((adminDesk.respond .external r).run w).1 = .json (Body.encode .v1 [p, q]) := by
  intro p q w query r
  have hw : w.store.Reachable := .answer (.write .create [p, q] none) (.memory .oneByte 3)
  have hpolicies : w.store.policies = .ok [p, q] := by decide
  obtain ⟨held, hheld⟩ : ∃ held, w.store = .memory held := ⟨_, rfl⟩
  have hfree : ∀ w', ¬ adminDesk.Hindered w w' := by
    rintro w' (hlate | hrefused)
    · exact Nat.not_lt_zero _ hlate
    · rw [hheld] at hrefused
      exact (OpenStore.undisturbed_memory held w'.store).accepted hrefused
  obtain ⟨ps, hps, hnamed, hall⟩ := query_addresses (s := adminDesk) rfl hw
  obtain rfl := Except.ok.inj (hpolicies.symm.trans hps)
  have hfound : [p, q].filter (fun x => x.source.id ∈ ["a b&=é", ""] ∨
      x.destination.id ∈ ["a b&=é", ""]) = [p] := by decide
  have hreads : adminDesk.Reads (some query) w [p] := hfound ▸
    hnamed [("x", "id=c")] ["a b&=é", ""] [("id", "c")] (by decide) (by decide) (by decide)
  have hreadsAll : adminDesk.Reads none w [p, q] := hall none (fun _ h => nomatch h)
  have hinternal := hreads.internal (r := { r with path := internalPath, query := some query })
    rfl rfl rfl Prod.mk.eta.symm
  obtain ⟨caller, hcaller, hadmin⟩ := fromAdmin_adminDesk (r := r) rfl w
  have hauth := Prod.ext (y := (Except.ok caller, _)) hcaller rfl
  have hseen := visible_admin hadmin adminDesk.collaborators adminDesk.limits.batchSize
  have hexternal := hreads.external (v := .v1) (r := { r with query := some query }) rfl rfl rfl
    hauth (hseen [p] _) Prod.mk.eta.symm
  have hexternalAll := hreadsAll.external (v := .v1) (r := r) rfl rfl rfl hauth (hseen [p, q] _)
    Prod.mk.eta.symm
  exact ⟨hw, hpolicies, (hreads.read Prod.mk.eta.symm).2.resolve_right fun h => hfree _ h.2,
    hexternal.resolve_right fun h => hfree _ h.2, hinternal.resolve_right fun h => hfree _ h.2,
    hexternalAll.resolve_right fun h => hfree _ h.2⟩

end Service
end NetworkPolicy
