import NetworkPolicy.Proofs.Server.Listing
import NetworkPolicy.Proofs.Server.Runs
import NetworkPolicy.Proofs.Store.Allocation

/-! A listing is a batch that can be deleted: what an administrator is told that there is can be sent
back as it came, and just that is gone then. -/
namespace NetworkPolicy

open Http (Request Response)

/-- The policies that a version cannot name. -/
def Body.omitted : Version → List Policy → List Policy
  | .v0, ps => ps.filter fun p => !p.destination.ports.isSingle
  | .v1, _ => []

/-! ### What is left -/

namespace MemoryStore

variable {m : MemoryStore}

/-- Without the policies that a version names, the store has the others, in the same order and with
the same tags. -/
theorem Valid.without_represented (hm : m.Valid) (v : Version) :
    (m.without ((Body.represented v m.policies).map Policy.withoutTags)).policies =
        Body.omitted v m.policies ∧
      (m.without ((Body.represented v m.policies).map Policy.withoutTags)).tags =
        m.tags.filter fun t => (Body.omitted v m.policies).any (·.ends.contains t.id) := by
  have hkeys : ((Body.represented v m.policies).map Policy.withoutTags).map Policy.key =
      (Body.represented v m.policies).map Policy.key := by
    rw [List.map_map]
    rfl
  have hleft : (m.without (Body.represented v m.policies)).policies =
      Body.omitted v m.policies := by
    cases v with
    | v0 => exact hm.policies_without_filter _
    | v1 =>
      have hall := hm.policies_without_filter fun _ => true
      rw [List.filter_true] at hall
      rw [Body.represented, hall]
      simp [Body.omitted]
  rw [without_congr fun k => iff_of_eq (congrArg (k ∈ ·) hkeys)]
  refine ⟨hleft, ?_⟩
  rw [hm.tags_without, hleft]

end MemoryStore

/-! ### Requests -/

/-- The path of the policies under a version. -/
def policiesPath (v : Version) : List UInt8 :=
  Percent.bytes ("/networking/" ++ v.name ++ "/external/policies").toList

/-- The path that policies are sent to that are to be deleted. -/
def deletionPath (v : Version) : List UInt8 :=
  Percent.bytes ("/networking/" ++ v.name ++ "/external/policies/delete").toList

theorem route_policiesPath (v : Version) : route .external (policiesPath v) =
    .route { get := some (.list v.name), post := some (.create v.name) } := by
  cases v <;> decide +kernel

theorem route_deletionPath (v : Version) :
    route .external (deletionPath v) = .route { post := some (.delete v.name) } := by
  cases v <;> decide +kernel

theorem Version.ofName?_name (v : Version) : Version.ofName? v.name = some v := by
  cases v <;> decide

namespace Service

variable {σ κ : Type} (s : Service σ κ)

/-- The request is an administrator's. -/
def FromAdmin (r : Request) (w : World σ κ) : Prop :=
  ∃ caller, (authenticate s.collaborators (.write s.limits.scopeChecking)
    (r.header? "authorization") w.collaborators).1 = .ok caller ∧ caller.isAdmin = true

/-- An administrator asks for all policies. -/
structure AsksForAll (v : Version) (r : Request) (w : World σ κ) : Prop where
  method : r.method = "GET"
  path : r.path = policiesPath v
  query : r.query = none
  admin : s.FromAdmin r w

/-- An administrator asks for a deletion, in a body that is not too long. -/
structure AsksToDelete (v : Version) (r : Request) (w : World σ κ) : Prop where
  method : r.method = "POST"
  path : r.path = deletionPath v
  size : r.body.size ≤ s.limits.maxBodyBytes
  admin : s.FromAdmin r w

variable {s} {S : Standing σ} {m : MemoryStore} {v : Version} {r : Request} {response : Response}
  {qs : List Policy} {w w' : World σ κ}

theorem FromAdmin.identified (h : s.FromAdmin r w) (v : Version) :
    ∃ caller k, caller.isAdmin = true ∧ s.Identified v.name (r.header? "authorization") w v caller
      { w with collaborators := k } := by
  obtain ⟨caller, hcaller, hadmin⟩ := h
  rcases hauth : authenticate s.collaborators (.write s.limits.scopeChecking)
    (r.header? "authorization") w.collaborators with ⟨x, k⟩
  rw [hauth] at hcaller
  subst hcaller
  exact ⟨caller, k, hadmin, .mk v.ofName?_name hauth⟩

section Listing

variable {caller : Caller} {ps seen : List Policy} {w₁ w₂ : World σ κ}

/-- A caller who asks for policies is told of those that the caller sees of what is read. -/
theorem list_answered (hmethod : r.method = "GET") (hpath : r.path = policiesPath v)
    (hidentified : s.Identified v.name (r.header? "authorization") w v caller w₁)
    (hread : (s.queried r.query).run w₁ = (.ok ps, w₂)) {k : κ}
    (hvisible : (visible s.collaborators s.limits.batchSize caller ps).outcome w₂.collaborators =
      (.ok seen, k)) :
    ∃ w', (s.respond .external r).run w = (.json (Body.encode v seen), w') ∧
      w'.store = w₂.store := by
  have hhandle : (s.handle (.list v.name) r).outcome.run w = _ :=
    listPolicies_run hidentified hread hvisible
  obtain ⟨w', hanswer, hquiet⟩ :=
    respond_get (hpath ▸ route_policiesPath v) rfl hmethod hhandle
  exact ⟨w', hanswer, hquiet.store⟩

/-- A caller who asks for policies that are not read is told that it failed. -/
theorem list_unanswered (hmethod : r.method = "GET") (hpath : r.path = policiesPath v)
    (hidentified : s.Identified v.name (r.header? "authorization") w v caller w₁) {e : StoreError}
    (hread : (s.queried r.query).run w₁ = (.error e, w₂)) :
    ∃ w', (s.respond .external r).run w =
      (Failure.response ⟨500, "policies-index", "database read failed"⟩, w') ∧
        w'.store = w₂.store := by
  obtain ⟨w₃, hfails, hquiet₃⟩ : ∃ w₃, (s.handle (.list v.name) r).outcome.run w =
      (.error ⟨500, "policies-index", "database read failed"⟩, w₃) ∧ w₂.Quiet w₃ := by
    rw [handle, listPolicies, hidentified.run]
    exact Task.fails_bind (require_error hread) _
  obtain ⟨w', hanswer, hquiet⟩ :=
    respond_get (hpath ▸ route_policiesPath v) rfl hmethod hfails
  exact ⟨w', hanswer, (hquiet₃.trans hquiet).store⟩

end Listing

/-- An administrator who is answered is told of all policies that the version can name. -/
theorem AsksForAll.listing (h : s.AsksForAll v r w) (hr : S.Realizes s.store)
    (hs : S.stands w.store m) (hrun : (s.respond .external r).run w = (response, w'))
    (hok : response.status = 200) :
    response = .json (Body.encode v m.policies) ∧ S.stands w'.store m := by
  obtain ⟨caller, k, hadmin, hidentified⟩ := h.admin.identified v
  have hs₁ : S.stands { w with collaborators := k }.store m := hs
  rcases hread : (s.queried r.query).run { w with collaborators := k } with ⟨e | ps, w₁⟩
  · obtain ⟨w₂, hanswer, -⟩ := list_unanswered h.method h.path hidentified hread
    obtain ⟨rfl, -⟩ := Prod.mk.inj (hrun.symm.trans hanswer)
    exact absurd hok (by decide)
  · obtain ⟨hstands, hstored⟩ := queried_ended hr hs₁ hread
    obtain rfl := hstored ps rfl
    obtain ⟨w₂, hanswer, hstore⟩ := list_answered h.method h.path hidentified hread
      (visible_admin hadmin s.collaborators s.limits.batchSize _ w₁.collaborators)
    obtain ⟨rfl, rfl⟩ := Prod.mk.inj (hrun.symm.trans hanswer)
    rw [h.query, Policy.filter_isAsked_of_none rfl]
    exact ⟨rfl, hstore ▸ hstands⟩

end Service

namespace Service

variable {κ : Type} {s : Service OpenStore κ} {m : MemoryStore} {v : Version}
  {qs : List Policy} {w w' : World OpenStore κ}

/-! ### Writes that come in time -/

theorem expired_after {now latency budget : Nat} (h : latency < budget) :
    (Deadline.after now budget).expired (now + latency) = false := by
  unfold Deadline.after Deadline.expired
  split
  · have hlater : ¬ now + budget ≤ now + latency := by omega
    simpa using hlater
  · rfl

theorem timeLimit_isUp (h : w.latency < s.deadline) : (s.timeLimit w).isUp = false :=
  expired_after h

theorem early_timeLimit (h : w.latency < s.deadline) (o : OpenStore) :
    OpenStore.standing.early o (s.timeLimit w) = false := by
  cases o with
  | memory => rfl
  | sqlite => rfl
  | postgres => exact expired_after h

/-- A deletion that comes to the store in time, and that the store's server does not refuse, is carried
out. -/
theorem delete_in_time (hr : OpenStore.standing.Realizes s.store)
    (hs : OpenStore.standing.stands w.store m) (htime : w.latency < s.deadline)
    {x : Except StoreError Unit} (hrun : (s.write .delete qs).run w = (x, w'))
    (haccepted : ¬ OpenStore.standing.refused w.store w'.store) :
    x = .ok () ∧ OpenStore.standing.stands w'.store (m.without qs) := by
  obtain ⟨w₁, hcall, hquiet⟩ := s.write_call .delete qs w
  obtain ⟨rfl, rfl⟩ := Prod.mk.inj (hrun.symm.trans hcall)
  have hideal : m.attempt .delete qs false false = .ok ((), m.without qs) := rfl
  have hended := hr.write hs .delete qs (some (s.timeLimit w))
  rw [Option.any_some, Option.any_some, early_timeLimit htime, timeLimit_isUp htime, hideal] at hended
  rw [hquiet.store] at haccepted ⊢
  generalize s.store.write .delete qs (some (s.timeLimit w)) w.store = y at hended haccepted ⊢
  cases hended with
  | done hdone _ _ hs' =>
    cases hdone
    exact ⟨rfl, hs'⟩
  | failed hfailed => exact nomatch hfailed
  | refused hrefused => exact absurd hrefused haccepted

variable {r : Request} {response : Response}

/-- An administrator's batch is deleted when it keeps the rules of its version. -/
theorem AsksToDelete.deletes (h : s.AsksToDelete v r w)
    (hr : OpenStore.standing.Realizes s.store) (hs : OpenStore.standing.stands w.store m)
    (hdecode : Body.decode v (Text.ofBytes r.body) = .ok qs) (hvalid : Body.validate v qs = .ok ())
    (htime : w.latency < s.deadline) (hrun : (s.respond .external r).run w = (response, w'))
    (haccepted : ¬ OpenStore.standing.refused w.store w'.store) :
    response = .done ∧ OpenStore.standing.stands w'.store (m.without qs) := by
  obtain ⟨caller, k, hadmin, hidentified⟩ := h.admin.identified v
  have hpassed := Accepted.mk hidentified ⟨h.size, hdecode⟩ hvalid
    (mayWrite_admin hadmin s.collaborators qs k)
  have hcleared : s.Cleared v.name (r.header? "authorization") r.body w .delete v caller qs
      { w with collaborators := k } := .delete hpassed
  have hs₁ : OpenStore.standing.stands { w with collaborators := k }.store m := hs
  rcases hwrite : (s.write .delete qs).run { w with collaborators := k } with ⟨x, w₁⟩
  have hanswered : ∀ {y w₂}, (s.handle (Change.delete.endpoint v.name) r).outcome.run w = (y, w₂) →
      ∃ w₃, (s.respond .external r).run w = (responseOf y, w₃) ∧ w₂.Quiet w₃ := fun h' =>
    respond_run (h.path ▸ route_deletionPath v) (by rw [h.method]; rfl)
      (by rw [h.method]; decide) h'
  -- whichever way the write ends, the response follows it, and the store stays as it left it
  have hafter : w'.store = w₁.store ∧ (x = .ok () → response = .done) := by
    cases x with
    | ok =>
      obtain ⟨w₂, hhandle, hquiet₂⟩ := hcleared.run hwrite
      rw [← handle_endpoint] at hhandle
      obtain ⟨w₃, hanswer, hquiet₃⟩ := hanswered hhandle
      obtain ⟨rfl, rfl⟩ := Prod.mk.inj (hrun.symm.trans hanswer)
      exact ⟨(hquiet₂.trans hquiet₃).store, fun _ => rfl⟩
    | error e =>
      have hfails : s.ChangeFails .delete v.name (r.header? "authorization") r.body w _ _ :=
        .write hcleared hwrite
      obtain ⟨w₂, hhandle, hquiet₂⟩ := hfails.run
      rw [← handle_endpoint] at hhandle
      obtain ⟨w₃, hanswer, hquiet₃⟩ := hanswered hhandle
      obtain ⟨rfl, rfl⟩ := Prod.mk.inj (hrun.symm.trans hanswer)
      exact ⟨(hquiet₂.trans hquiet₃).store, fun h => nomatch h⟩
  rw [hafter.1] at haccepted ⊢
  obtain ⟨hok, hstands⟩ := delete_in_time hr hs₁ htime hwrite haccepted
  exact ⟨hafter.2 hok, hstands⟩

/-! ### Listings sent back -/

/-- A batch as it comes out of a listing can be deleted: it keeps the rules of its version. -/
theorem validate_represented {max : Nat} {ps : List Policy} (h : Orderly max ps)
    (hsome : Body.represented v ps ≠ []) :
    Body.validate v ((Body.represented v ps).map Policy.withoutTags) = .ok () := by
  have hsub : ∀ p ∈ Body.represented v ps, p ∈ ps := by
    cases v with
    | v0 => exact fun p hp => List.mem_of_mem_filter hp
    | v1 => exact fun p hp => hp
  refine Body.validate_of_proper (by simpa using hsome) ?_ ?_
  · intro q hq
    obtain ⟨p, hp, rfl⟩ := List.mem_map.mp hq
    exact (h.proper p (hsub p hp)).of_key_eq rfl
  · intro hv q hq
    obtain ⟨p, hp, rfl⟩ := List.mem_map.mp hq
    exact Body.represented_single hv p hp

/-- In every state that requests can bring an empty server into: the listing that an administrator gets
of a version, sent back to be deleted in time, takes away just the policies that the version names,
and with them the tags that no other policy needs. After a listing of the version that names all
policies, nothing is left. -/
theorem relisting_deletes (hstore : s.store = OpenStore.store) {start : World OpenStore κ}
    (hstart : start.store.Reachable) (hempty : start.store.policies = .ok [])
    (hvisited : s.Visited start w) {ps : List Policy} {tags : List Tag}
    (hpolicies : w.store.policies = .ok ps) (htags : w.store.tags = .ok tags)
    (hsome : Body.represented v ps ≠ []) {r r' : Request} {listing response : Response}
    {w₁ w₂ w₃ w₄ : World OpenStore κ} (hasks : s.AsksForAll v r w₁) (hsame : w₁.store = w.store)
    (hlisting : (s.respond .external r).run w₁ = (listing, w₂)) (hlisted : listing.status = 200)
    (hdeletes : s.AsksToDelete v r' w₃) (hsame' : w₃.store = w₂.store)
    (hbody : r'.body = listing.body.toUTF8) (htime : w₃.latency < s.deadline)
    (hresponse : (s.respond .external r').run w₃ = (response, w₄))
    (haccepted : ¬ OpenStore.standing.refused w₃.store w₄.store) :
    response.status = 200 ∧ w₄.store.policies = .ok (Body.omitted v ps) ∧
      w₄.store.tags =
        .ok (tags.filter fun t => (Body.omitted v ps).any (·.ends.contains t.id)) ∧
      (v = .v1 → w₄.store.policies = .ok [] ∧ w₄.store.tags = .ok []) := by
  have hr : OpenStore.standing.Realizes s.store := hstore ▸ OpenStore.realizes
  obtain ⟨m₀, hs₀⟩ := hstart.stands
  have hnone : m₀.policies = [] :=
    Except.ok.inj ((OpenStore.policies_eq hs₀).symm.trans hempty)
  have horderly : Orderly s.limits.maxPolicies m₀.policies := by
    rw [hnone]
    exact ⟨fun p hp => absurd hp List.not_mem_nil, List.nodup_nil, Nat.zero_le _⟩
  obtain ⟨m, hs, hm⟩ := hvisited.inOrder hr ⟨m₀, hs₀, horderly⟩
  obtain rfl := Except.ok.inj ((OpenStore.policies_eq hs).symm.trans hpolicies)
  obtain rfl := Except.ok.inj ((OpenStore.tags_eq hs).symm.trans htags)
  obtain ⟨rfl, hs₂⟩ := hasks.listing hr (hsame ▸ hs) hlisting hlisted
  have hdecode : Body.decode v (Text.ofBytes r'.body) =
      .ok ((Body.represented v m.policies).map Policy.withoutTags) := by
    rw [hbody]
    exact Body.decode_encode v m.policies
  have hvalid := validate_represented hm hsome
  obtain ⟨rfl, hs₄⟩ :=
    hdeletes.deletes hr (hsame' ▸ hs₂) hdecode hvalid htime hresponse haccepted
  obtain ⟨hleft, htagsLeft⟩ := (OpenStore.standing.valid hs).without_represented v
  have hleft' : w₄.store.policies = .ok (Body.omitted v m.policies) := by
    rw [OpenStore.policies_eq hs₄, hleft]
  have htags' : w₄.store.tags = .ok (m.tags.filter fun t =>
      (Body.omitted v m.policies).any (·.ends.contains t.id)) := by
    rw [OpenStore.tags_eq hs₄, htagsLeft]
  refine ⟨rfl, hleft', htags', ?_⟩
  rintro rfl
  refine ⟨hleft', htags'.trans ?_⟩
  simp [Body.omitted]

/-- The caller of `countingDesk` is an administrator. -/
def adminDesk : Service OpenStore Nat :=
  { countingDesk [] {} with
    collaborators := { (countingDesk [] {}).collaborators with
      checkToken := fun _ k => (.answer (.ok ⟨[Caller.adminScope], "u", "user"⟩), k + 1) } }

theorem fromAdmin_adminDesk {r : Request} (h : r.headers = (submission []).headers)
    (w : World OpenStore Nat) : adminDesk.FromAdmin r w := by
  have hheader : r.header? "authorization" = some "Bearer t" := by
    rw [Request.header?, h]
    decide +kernel
  refine ⟨⟨[Caller.adminScope], "u", "user"⟩, ?_, by decide⟩
  rw [hheader]
  rfl

/-- An administrator stores a policy of one port and one of two, and sends the listing of the older
version back: the policy of one port is gone, and so is the tag that only it needed. -/
theorem relisting_deletes_single_port :
    let p : Policy := ⟨⟨"a", "01"⟩, ⟨"b", "02", "tcp", ⟨80, 80⟩⟩⟩
    let q : Policy := ⟨⟨"b", "02"⟩, ⟨"c", "03", "tcp", ⟨80, 81⟩⟩⟩
    let r : Request := { submission [] with method := "GET", path := policiesPath .v0 }
    morning.store.Reachable ∧ morning.store.policies = .ok [] ∧ ∃ w, adminDesk.Visited morning w ∧
      w.store.policies = .ok [p, q] ∧ w.store.tags = .ok [⟨"a", "01"⟩, ⟨"b", "02"⟩, ⟨"c", "03"⟩] ∧
      ∃ listing w₂ response w₄,
        (adminDesk.respond .external r).run { morning with store := w.store } = (listing, w₂) ∧
        (adminDesk.respond .external { r with
          method := "POST", path := deletionPath .v0, body := listing.body.toUTF8 }).run
            { morning with store := w₂.store } = (response, w₄) ∧
        response.status = 200 ∧ w₄.store.policies = .ok [q] ∧
        w₄.store.tags = .ok [⟨"b", "02"⟩, ⟨"c", "03"⟩] := by
  intro p q r
  have hstart : morning.store.Reachable := .memory .oneByte 3
  have hempty : morning.store.policies = .ok [] := by decide
  let held : MemoryStore := ⟨.oneByte,
    ⟨3, [(1, "a"), (2, "b"), (3, "c")], [("a", 1), ("b", 2), ("c", 3)]⟩,
    [⟨1, 2, "tcp", ⟨80, 80⟩⟩, ⟨2, 3, "tcp", ⟨80, 81⟩⟩]⟩
  obtain ⟨w, hvisited, hw⟩ : ∃ w, adminDesk.Visited morning w ∧ w.store = .memory held := by
    have hvisited : adminDesk.Visited morning _ :=
      .request .external (submission [q]) (.request .external (submission [p]) .start rfl) rfl
    refine ⟨_, hvisited, ?_⟩
    apply OpenStore.eq_memory
    decide +kernel
  have hpolicies : w.store.policies = .ok [p, q] := by
    rw [hw]
    decide
  have htags : w.store.tags = .ok [⟨"a", "01"⟩, ⟨"b", "02"⟩, ⟨"c", "03"⟩] := by
    rw [hw]
    decide
  rcases hlisting : (adminDesk.respond .external r).run { morning with store := w.store } with
    ⟨listing, w₂⟩
  obtain ⟨hlisted, hsize, hw₂⟩ : listing.status = 200 ∧
      listing.body.toUTF8.size ≤ adminDesk.limits.maxBodyBytes ∧ w₂.store = .memory held := by
    rw [hw, Prod.ext_iff] at hlisting
    obtain ⟨rfl, rfl⟩ := hlisting
    exact ⟨by decide +kernel, by decide +kernel, OpenStore.eq_memory (by decide +kernel)⟩
  let r' : Request := { r with
    method := "POST", path := deletionPath .v0, body := listing.body.toUTF8 }
  rcases hresponse : (adminDesk.respond .external r').run { morning with store := w₂.store } with
    ⟨response, w₄⟩
  have hheaders : r.headers = (submission []).headers := rfl
  have hheaders' : r'.headers = (submission []).headers := rfl
  have hasks : adminDesk.AsksForAll .v0 r { morning with store := w.store } :=
    ⟨rfl, rfl, rfl, fromAdmin_adminDesk hheaders _⟩
  have hdeletes : adminDesk.AsksToDelete .v0 r' { morning with store := w₂.store } :=
    ⟨rfl, rfl, hsize, fromAdmin_adminDesk hheaders' _⟩
  have htime : 0 < adminDesk.deadline := by decide +kernel
  have haccepted : ¬ OpenStore.standing.refused w₂.store w₄.store :=
    hw₂ ▸ (OpenStore.undisturbed_memory held w₄.store).accepted
  have hsome : Body.represented .v0 [p, q] ≠ [] := by decide
  obtain ⟨hok, hleft, htagsLeft, -⟩ := relisting_deletes rfl hstart hempty hvisited hpolicies htags
    hsome hasks rfl hlisting hlisted hdeletes rfl rfl htime hresponse haccepted
  have homitted : Body.omitted .v0 [p, q] = [q] := by decide
  rw [homitted] at hleft htagsLeft
  exact ⟨hstart, hempty, w, hvisited, hpolicies, htags, listing, w₂, response, w₄, hlisting,
    hresponse, hok, hleft, htagsLeft⟩

end Service
end NetworkPolicy
