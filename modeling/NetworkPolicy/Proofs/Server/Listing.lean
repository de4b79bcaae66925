import NetworkPolicy.Proofs.Access.Visibility
import NetworkPolicy.Proofs.Server.Changes

/-! A listing tells its caller nothing of the policies that the caller does not see: neither which
ones there are, nor how many, nor the tags that they take away from others. -/
namespace NetworkPolicy

open Http (Request Response)

/-- Whether a query asks for the policy. -/
def Policy.isAsked (query : Option (List UInt8)) (p : Policy) : Bool :=
  match requestedIds query with
  | some ids => ids.contains p.source.id || ids.contains p.destination.id
  | none => true

theorem Policy.filter_isAsked_of_none {query : Option (List UInt8)} (h : requestedIds query = none)
    (ps : List Policy) : ps.filter (·.isAsked query) = ps := by
  simp only [Policy.isAsked, h, List.filter_true]

theorem Body.encode_withoutTags (v : Version) (ps : List Policy) :
    encode v (ps.map Policy.withoutTags) = encode v ps := by
  have hrepresented : represented v (ps.map Policy.withoutTags) =
      (represented v ps).map Policy.withoutTags := by
    cases v with
    | v0 => exact List.filter_map
    | v1 => rfl
  rw [encode_eq, encode_eq, hrepresented, listing, listing, List.length_map, List.map_map]
  rfl

namespace Service

variable {σ κ : Type} {s : Service σ κ} {S : Standing σ} {m : MemoryStore} {version : String}
  {header : Option String} {query : Option (List UInt8)} {v : Version} {caller : Caller}
  {ps seen : List Policy} {w w' w₁ w₂ : World σ κ} {k : κ}

/-- A query is a read of the policies that it asks for. -/
theorem exists_queried_read (hr : S.Realizes s.store) (hs : S.stands w.store m)
    (query : Option (List UInt8)) : ∃ c f, s.queried query = s.read c f ∧
      S.Ended w.store m (.ok (m.policies.filter (·.isAsked query), m)) (f w.store) := by
  unfold queried
  split
  · rename_i ids hids
    have hasked : m.policies.filter (·.isAsked query) = m.policies.filter fun p =>
        ids.contains p.source.id || ids.contains p.destination.id := by
      simp only [Policy.isAsked, hids]
    rw [hasked]
    exact ⟨_, _, rfl, hr.byGuids hs ids ids⟩
  · rename_i hids
    rw [Policy.filter_isAsked_of_none hids]
    exact ⟨_, _, rfl, hr.all hs⟩

theorem queried_ended (hr : S.Realizes s.store) (hs : S.stands w.store m)
    {r : Except StoreError (List Policy)} (hrun : (s.queried query).run w = (r, w')) :
    S.stands w'.store m ∧ ∀ ps, r = .ok ps → ps = m.policies.filter (·.isAsked query) := by
  obtain ⟨c, f, hread, hended⟩ := exists_queried_read hr hs query
  exact read_ended hs hended (hread ▸ hrun)

theorem queried_asks_nobody {r : Except StoreError (List Policy)}
    (hrun : (s.queried query).run w = (r, w')) : w'.collaborators = w.collaborators := by
  unfold queried at hrun
  split at hrun <;> exact s.read_asks_nobody hrun

theorem queried_collaborators (s : Service σ κ) (query : Option (List UInt8)) (w : World σ κ)
    (k : κ) : ((s.queried query).run { w with collaborators := k }).1 =
      ((s.queried query).run w).1 := by
  unfold queried
  split <;> exact s.read_collaborators _ _ w k

theorem listPolicies_run (h : s.Identified version header w v caller w₁)
    (hread : (s.queried query).run w₁ = (.ok ps, w₂))
    (hvisible : (visible s.collaborators s.limits.batchSize caller ps).outcome w₂.collaborators =
      (.ok seen, k)) :
    (s.listPolicies version header query).outcome.run w =
      (.ok (.json (Body.encode v seen)), { w₂ with collaborators := k }) := by
  rw [listPolicies, h.run, Task.outcome_bind_ok (require_ok hread),
    Task.outcome_bind_ok (require_ok (inquire_run hvisible))]
  rfl

/-- The response to the listing of these policies. -/
def listed (version : String) (r : Request) (ps : List Policy) : Response :=
  let response := match Version.ofName? version with
    | some v => .json (Body.encode v (ps.filter (·.isAsked r.query)))
    | none => Failure.response ⟨406, "check-version", "api version not supported"⟩
  if r.method = "HEAD" then { response with body := "" } else response

/-- Neither the question nor the caller's spaces have to do with tags. -/
theorem encode_asked (v : Version) (query : Option (List UInt8)) (f : Policy → Bool)
    (ps : List Policy) :
    Body.encode v ((ps.filter (·.isAsked query)).filter f) =
      Body.encode v (((ps.filter f).map Policy.withoutTags).filter (·.isAsked query)) := by
  have hasked : ((ps.filter f).map Policy.withoutTags).filter (·.isAsked query) =
      ((ps.filter f).filter (·.isAsked query)).map Policy.withoutTags := List.filter_map
  rw [hasked, Body.encode_withoutTags, List.filter_filter, List.filter_filter]
  simp only [Bool.and_comm]

/-- Tags apart, a listing is determined by the policies within the caller's own spaces. -/
theorem list_run {space : String → Option String} {developer : String → List String} {r : Request}
    (hr : S.Realizes s.store) (hs : S.stands w.store m)
    (hcaller : (authenticate s.collaborators (.write s.limits.scopeChecking)
      (r.header? "authorization") w.collaborators).1 = .ok caller)
    (hadmin : caller.isAdmin = false) (hsteady : Steady s.collaborators space developer)
    (hread : ∃ ps, ((s.queried r.query).run w).1 = .ok ps) (version : String) :
    ((s.answer (.list version) r).run w).1 = listed version r
      ((m.policies.filter (·.isWithin space (developer caller.userId))).map
        Policy.withoutTags) := by
  cases hversion : Version.ofName? version with
  | none =>
    obtain ⟨w', hrun, -⟩ : ∃ w', (s.handle (.list version) r).outcome.run w =
        (.error ⟨406, "check-version", "api version not supported"⟩, w') ∧ w.Quiet w' :=
      Task.fails_bind ⟨w, selectVersion_error hversion, rfl, rfl⟩ _
    obtain ⟨w'', hanswer, -⟩ := answer_run hrun
    rw [hanswer, listed, hversion]
    rfl
  | some v =>
    rcases hauth : authenticate s.collaborators (.write s.limits.scopeChecking)
      (r.header? "authorization") w.collaborators with ⟨x, k⟩
    rw [hauth] at hcaller
    subst hcaller
    have hidentified := Identified.mk hversion hauth
    rcases hquery : (s.queried r.query).run { w with collaborators := k } with ⟨x, w₂⟩
    obtain ⟨ps, hps⟩ := hread
    rw [← queried_collaborators s r.query w k, hquery] at hps
    subst hps
    have hasked : ps = m.policies.filter (·.isAsked r.query) :=
      (queried_ended (w := { w with collaborators := k }) hr hs hquery).2 ps rfl
    obtain ⟨k', hvisible⟩ := visible_run hsteady hadmin s.limits.batchSize ps w₂.collaborators
    have hrun : (s.handle (.list version) r).outcome.run w = _ :=
      listPolicies_run hidentified hquery hvisible
    obtain ⟨w'', hanswer, -⟩ := answer_run hrun
    rw [hanswer, listed, hversion, hasked, encode_asked]
    rfl

end Service

namespace Service

variable {κ : Type} {s : Service OpenStore κ} {w₁ w₂ : World OpenStore κ}

/-- Two stores from which a caller sees the same policies are listed alike, byte by byte, whatever
else they hold and in whatever state the server is, for every version and every query. -/
theorem list_confidential (hstore : s.store = OpenStore.store) (hw₁ : w₁.store.Reachable)
    (hw₂ : w₂.store.Reachable) {caller : Caller} {space : String → Option String}
    {developer : String → List String} (r : Request)
    (hcaller₁ : (authenticate s.collaborators (.write s.limits.scopeChecking)
      (r.header? "authorization") w₁.collaborators).1 = .ok caller)
    (hcaller₂ : (authenticate s.collaborators (.write s.limits.scopeChecking)
      (r.header? "authorization") w₂.collaborators).1 = .ok caller)
    (hadmin : caller.isAdmin = false) (hsteady : Steady s.collaborators space developer)
    (hread₁ : ∃ ps, ((s.queried r.query).run w₁).1 = .ok ps)
    (hread₂ : ∃ ps, ((s.queried r.query).run w₂).1 = .ok ps) {ps₁ ps₂ : List Policy}
    (hps₁ : w₁.store.policies = .ok ps₁) (hps₂ : w₂.store.policies = .ok ps₂)
    (hsame : (ps₁.filter (·.isWithin space (developer caller.userId))).map Policy.withoutTags =
      (ps₂.filter (·.isWithin space (developer caller.userId))).map Policy.withoutTags)
    (version : String) :
    ((s.answer (.list version) r).run w₁).1 = ((s.answer (.list version) r).run w₂).1 := by
  have hr : OpenStore.standing.Realizes s.store := hstore ▸ OpenStore.realizes
  obtain ⟨m₁, hs₁⟩ := hw₁.stands
  obtain ⟨m₂, hs₂⟩ := hw₂.stands
  obtain rfl := Except.ok.inj ((OpenStore.policies_eq hs₁).symm.trans hps₁)
  obtain rfl := Except.ok.inj ((OpenStore.policies_eq hs₂).symm.trans hps₂)
  rw [list_run hr hs₁ hcaller₁ hadmin hsteady hread₁,
    list_run hr hs₂ hcaller₂ hadmin hsteady hread₂, hsame]

theorem steady_countingDesk (own : List String) (limits : Limits) :
    Steady (countingDesk own limits).collaborators some fun _ => own where
  serviceToken k := ⟨_, rfl⟩
  appSpaces token apps k := by
    refine ⟨_, rfl, fun a x => ?_⟩
    simp only [List.mem_map, Prod.mk.injEq, Option.some.injEq]
    constructor
    · rintro ⟨b, hb, rfl, rfl⟩
      exact ⟨hb, rfl⟩
    · rintro ⟨ha, rfl⟩
      exact ⟨a, ha, rfl, rfl⟩
  userSpaces token user k := ⟨_, rfl, fun x => Iff.rfl⟩

/-- A policy to an application of others comes first and takes a tag: the caller is told as much as
when it is not stored. -/
theorem list_confidential_hidden :
    let hidden : Policy := ⟨⟨"b", "01"⟩, ⟨"c", "02", "tcp", ⟨80, 81⟩⟩⟩
    let seen : Policy := ⟨⟨"a", "03"⟩, ⟨"b", "01", "udp", ⟨53, 53⟩⟩⟩
    let alone : Policy := ⟨⟨"a", "01"⟩, ⟨"b", "02", "udp", ⟨53, 53⟩⟩⟩
    let s := countingDesk ["a", "b"] {}
    let w₁ := { morning with
      store := (OpenStore.store.write .create [hidden, seen] none morning.store).2 }
    let w₂ := { morning with
      store := (OpenStore.store.write .create [alone] none morning.store).2 }
    let r : Request := { submission [] with method := "GET" }
    w₁.store.Reachable ∧ w₂.store.Reachable ∧ w₁.store.policies = .ok [hidden, seen] ∧
      w₂.store.policies = .ok [alone] ∧
      ((s.answer (.list "v1") r).run w₁).1 = ((s.answer (.list "v1") r).run w₂).1 := by
  intro hidden seen alone s w₁ w₂ r
  have hw₁ : w₁.store.Reachable := .answer (.write .create [hidden, seen] none) (.memory .oneByte 3)
  have hw₂ : w₂.store.Reachable := .answer (.write .create [alone] none) (.memory .oneByte 3)
  have hcaller : (authenticate s.collaborators (.write s.limits.scopeChecking)
      (r.header? "authorization") 0).1 = .ok ⟨[Caller.writeScope], "u", "user"⟩ := by
    decide +kernel
  have hps₁ : w₁.store.policies = .ok [hidden, seen] := by decide
  have hps₂ : w₂.store.policies = .ok [alone] := by decide
  have hread₁ : ((s.queried r.query).run w₁).1 = .ok [hidden, seen] := by decide
  have hread₂ : ((s.queried r.query).run w₂).1 = .ok [alone] := by decide
  have hsame : ([hidden, seen].filter (·.isWithin some ["a", "b"])).map Policy.withoutTags =
      ([alone].filter (·.isWithin some ["a", "b"])).map Policy.withoutTags := by decide
  exact ⟨hw₁, hw₂, hps₁, hps₂, list_confidential (s := s) rfl hw₁ hw₂ r hcaller hcaller (by decide)
    (steady_countingDesk ["a", "b"] {}) ⟨_, hread₁⟩ ⟨_, hread₂⟩ hps₁ hps₂ hsame "v1"⟩

end Service
end NetworkPolicy
