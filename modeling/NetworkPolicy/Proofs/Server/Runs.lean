import NetworkPolicy.Proofs.Policy.Rules
import NetworkPolicy.Proofs.Server.Changes
import NetworkPolicy.Proofs.Server.Cleaning

/-! What holds of the stored policies after every request: only checked batches get into the store,
and never more than there may be. -/
namespace NetworkPolicy

open Http (Request Response)

/-- What the stored policies are to be. -/
structure Orderly (max : Nat) (ps : List Policy) : Prop where
  proper : ∀ p ∈ ps, p.Proper
  keys : (ps.map Policy.key).Nodup
  count : ps.length ≤ max

/-! ### Writes -/

namespace MemoryStore

variable {m m' : MemoryStore} {max : Nat} {ps : List Policy}

theorem length_foldl_addKey (ks : List Policy.Key) (ps : List Policy) :
    (ps.foldl addKey ks).length ≤ ks.length + ps.length := by
  induction ps generalizing ks with
  | nil => exact Nat.le_refl _
  | cons p ps ih =>
    have hone : (addKey ks p).length ≤ ks.length + 1 := by
      unfold addKey
      split
      · omega
      · simp
    have hrest := ih (addKey ks p)
    rw [List.foldl_cons, List.length_cons]
    omega

/-- A batch adds at most as many policies as it has. -/
theorem Valid.length_createAll (hm : m.Valid) (h : m.written .create ps = .ok m') :
    m'.policies.length ≤ m.policies.length + ps.length := by
  obtain ⟨-, -, -, hkeys⟩ := hm.createAll h
  have hcount := length_foldl_addKey m.keys ps
  rw [← hkeys, keys, keys, List.length_map, List.length_map] at hcount
  exact hcount

/-- A batch of proper policies that there is room for leaves an orderly store orderly. -/
theorem Valid.orderly_create (hm : m.Valid) (h : Orderly max m.policies)
    (hps : ∀ p ∈ ps, p.Proper) (hroom : m.policies.length + ps.length ≤ max)
    (hwritten : m.written .create ps = .ok m') : Orderly max m'.policies := by
  obtain ⟨hm', -, -, hkeys⟩ := hm.createAll hwritten
  refine ⟨fun p hp => ?_, hm'.keys_nodup, (hm.length_createAll hwritten).trans hroom⟩
  have hmem : p.key ∈ ps.foldl addKey m.keys := hkeys ▸ List.mem_map_of_mem hp
  rcases mem_foldl_addKey.mp hmem with hold | ⟨q, hq, hkey⟩
  · obtain ⟨q, hq, hkey⟩ := List.mem_map.mp hold
    exact (h.proper q hq).of_key_eq hkey.symm
  · exact (hps q hq).of_key_eq hkey.symm

theorem Valid.orderly_without (hm : m.Valid) (h : Orderly max m.policies) (ps : List Policy) :
    Orderly max (m.without ps).policies := by
  have hkept := hm.policies_without ps
  have hsub : (m.without ps).policies.Sublist m.policies := hkept ▸ List.filter_sublist
  exact ⟨fun p hp => h.proper p (hsub.subset hp), (hsub.map _).nodup h.keys,
    hsub.length_le.trans h.count⟩

end MemoryStore

/-! ### Steps that keep what holds of the store -/

namespace Service

variable {σ κ α β ε : Type} {s : Service σ κ} {P : σ → Prop} {S : Standing σ} {m : MemoryStore}
  {w w' : World σ κ}

/-- The step leaves the store with a property that it had. -/
def Keeps (P : σ → Prop) (step : Effect σ κ α) : Prop :=
  ∀ w a w', step.run w = (a, w') → P w.store → P w'.store

theorem keeps_bind {t : Task σ κ ε α} {f : α → Task σ κ ε β} (ht : Keeps P t.outcome)
    (hf : ∀ a, Keeps P (f a).outcome) : Keeps P (t >>= f).outcome := by
  intro w b w' hrun hw
  rw [Task.outcome_bind] at hrun
  rcases hfirst : t.outcome.run w with ⟨e | a, w₁⟩
  · have hw₁ := ht w _ w₁ hfirst hw
    rw [hfirst] at hrun
    cases hrun
    exact hw₁
  · have hw₁ := ht w _ w₁ hfirst hw
    rw [hfirst] at hrun
    exact hf a w₁ b w' hrun hw₁

theorem keeps_pure (a : α) : Keeps P (pure a : Task σ κ ε α).outcome := by
  intro w b w' hrun hw
  cases hrun
  exact hw

theorem keeps_require {step : Effect σ κ (Except ε α)} {sessions : List String} {event : String}
    {cause : ε → String} {f : ε → Failure} (h : Keeps P step) :
    Keeps P (s.require sessions event cause f step).outcome := by
  intro w b w' hrun hw
  rcases hstep : step.run w with ⟨e | a, w₁⟩
  · have hw₁ := h w _ w₁ hstep hw
    have hrequire : ∃ w'', (s.require sessions event cause f step).outcome.run w =
      (.error (f e), w'') ∧ w₁.Quiet w'' := require_error hstep
    obtain ⟨w'', hrequire, hquiet⟩ := hrequire
    cases hrun.symm.trans hrequire
    exact hquiet.store ▸ hw₁
  · have hw₁ := h w _ w₁ hstep hw
    cases hrun.symm.trans (require_ok hstep)
    exact hw₁

theorem keeps_selectVersion (version : String) :
    Keeps P (selectVersion version : Pipeline σ κ Version).outcome := by
  cases hversion : Version.ofName? version with
  | none =>
    intro w b w' hrun hw
    cases hrun.symm.trans (selectVersion_error hversion)
    exact hw
  | some v =>
    intro w b w' hrun hw
    cases hrun.symm.trans (selectVersion_ok hversion)
    exact hw

theorem keeps_inquire (q : Inquiry κ α) : Keeps P (inquire q : Effect σ κ _) := by
  intro w b w' hrun hw
  cases hrun.symm.trans (inquire_run rfl)
  exact hw

theorem keeps_identify (allowed : AllowedScopes) (header : Option String) :
    Keeps P (s.identify allowed header).outcome := by
  refine keeps_require ?_
  intro w b w' hrun hw
  cases hrun
  exact hw

/-! ### What requests do to an orderly store -/

/-- The store stands for one in memory with orderly policies. -/
def InOrder (S : Standing σ) (max : Nat) (o : σ) : Prop :=
  ∃ m, S.stands o m ∧ Orderly max m.policies

variable {max : Nat}

theorem keeps_read {c : StoreCall} {f : σ → Except StoreError α × σ}
    (h : ∀ o m, S.stands o m → ∃ a, S.Ended o m (.ok (a, m)) (f o)) :
    Keeps (InOrder S max) (s.read c f) := by
  rintro w r w' hrun ⟨m, hs, hm⟩
  obtain ⟨a, hended⟩ := h w.store m hs
  exact ⟨m, (read_ended hs hended hrun).1, hm⟩

theorem keeps_queried (hr : S.Realizes s.store) (query : Option (List UInt8)) :
    Keeps (InOrder S max) (s.queried query) := by
  unfold queried
  split
  · exact keeps_read fun o m hs => ⟨_, hr.byGuids hs _ _⟩
  · exact keeps_read fun o m hs => ⟨_, hr.all hs⟩

theorem keeps_clean (hr : S.Realizes s.store) : Keeps (InOrder S max) s.clean.outcome := by
  rintro w r w' hrun ⟨m, hs, hm⟩
  by_cases hfails : ∃ e, s.CleaningFails w e
  · obtain ⟨e, he⟩ := hfails
    obtain ⟨w₁, hrun₁, hs₁⟩ := he.run hr hs
    cases hrun.symm.trans hrun₁
    exact ⟨m, hs₁, hm⟩
  · obtain ⟨ps, live, w₁, h⟩ := (exists_surveyed s w).resolve_right hfails
    obtain ⟨w₂, hrun₂, hs₂⟩ := h.run (not_exists.mp hfails) hr hs
    cases hrun.symm.trans hrun₂
    exact ⟨_, hs₂, (S.valid hs).orderly_without hm _⟩

theorem Accepted.proper {version : String} {header : Option String} {body : ByteArray}
    {v : Version} {caller : Caller} {ps : List Policy}
    (h : s.Accepted version header body w v caller ps w') : ∀ p ∈ ps, p.Proper := by
  obtain ⟨-, -, hvalid, -⟩ := h
  exact Body.proper_of_validate hvalid

theorem keeps_change (hr : S.Realizes s.store) (c : Change) (version : String)
    (header : Option String) (body : ByteArray) :
    Keeps (InOrder S s.limits.maxPolicies) (s.change c version header body).outcome := by
  rintro w x w' hrun ⟨m, hs, hm⟩
  by_cases hfails : ∃ f w₁, s.ChangeFails c version header body w f w₁
  · obtain ⟨f, w₁, h⟩ := hfails
    obtain ⟨w₂, hrun₂, hquiet⟩ := h.run
    cases hrun.symm.trans hrun₂
    exact ⟨m, hquiet.store ▸ h.stands hr hs, hm⟩
  · have hno : ∀ f w₁, ¬ s.ChangeFails c version header body w f w₁ :=
      fun f w₁ h => hfails ⟨f, w₁, h⟩
    obtain ⟨v, caller, ps, w₁, w₂, hcleared, hwrite⟩ := exists_written hno
    obtain ⟨w₃, hrun₃, hquiet⟩ := hcleared.run hwrite
    cases hrun.symm.trans hrun₃
    obtain ⟨m', hwritten, hs'⟩ := write_run hr (hcleared.stands hr hs) hwrite
    refine ⟨m', hquiet.store ▸ hs', ?_⟩
    cases hcleared with
    | create haccepted hread hroom =>
      -- the quota was checked on what is stored, since nothing was written in between
      have hs₁ := haccepted.store_eq ▸ hs
      have hstored := (read_ended hs₁ (hr.all hs₁) hread).2 _ rfl
      exact (S.valid hs).orderly_create hm haccepted.proper (hstored ▸ hroom) hwritten
    | delete _ =>
      cases hwritten
      exact (S.valid hs).orderly_without hm ps

theorem keeps_handle (hr : S.Realizes s.store) (e : Endpoint) (r : Request) :
    Keeps (InOrder S s.limits.maxPolicies) (s.handle e r).outcome := by
  cases e with
  | uptime =>
    intro w x w' hrun hw
    cases hrun
    exact hw
  | health =>
    exact keeps_bind (keeps_require (keeps_read fun o m hs => ⟨_, hr.check hs⟩))
      fun _ => keeps_pure _
  | whoAmI v =>
    exact keeps_bind (keeps_selectVersion v) fun _ => keeps_bind (keeps_identify _ _)
      fun _ => keeps_pure _
  | list v =>
    exact keeps_bind (keeps_selectVersion v) fun _ => keeps_bind (keeps_identify _ _)
      fun _ => keeps_bind (keeps_require (keeps_queried hr _))
        fun _ => keeps_bind (keeps_require (keeps_inquire _)) fun _ => keeps_pure _
  | create v => exact keeps_change hr .create v _ _
  | delete v => exact keeps_change hr .delete v _ _
  | cleanUp v =>
    exact keeps_bind (keeps_selectVersion v) fun _ => keeps_bind (keeps_identify _ _)
      fun _ => keeps_bind (keeps_require (keeps_clean hr)) fun _ => keeps_pure _
  | tags v =>
    exact keeps_bind (keeps_selectVersion v) fun _ => keeps_bind (keeps_identify _ _)
      fun _ => keeps_bind (keeps_require (keeps_read fun o m hs => ⟨_, hr.tags hs⟩))
        fun _ => keeps_pure _
  | listInternally =>
    exact keeps_bind (keeps_require (keeps_queried hr _)) fun _ => keeps_pure _

/-- No request takes the order of the stored policies away. -/
theorem keeps_respond (hr : S.Realizes s.store) (side : Side) (r : Request) :
    Keeps (InOrder S s.limits.maxPolicies) (s.respond side r) := by
  have hpure : ∀ response : Response,
      Keeps (InOrder S s.limits.maxPolicies) (pure response : Effect σ κ _) := by
    intro response w x w' hrun hw
    cases hrun
    exact hw
  unfold respond
  split
  · exact hpure _
  · split
    · exact hpure _
    · split
      · rename_i e _ _
        intro w x w' hrun hw
        rcases hhandle : (s.handle e r).outcome.run w with ⟨y, w₁⟩
        obtain ⟨w₂, hanswer, hquiet⟩ := answer_run hhandle
        cases hrun.symm.trans hanswer
        exact hquiet.store ▸ keeps_handle hr e r w y w₁ hhandle hw
      · exact hpure _

/-! ### Runs of requests -/

/-- The worlds of a run: requests come one after the other, from either side. Between two of them
everything but the store may change. -/
inductive Visited (s : Service σ κ) (start : World σ κ) : World σ κ → Prop where
  | start : Visited s start start
  | request {w w₁ : World σ κ} (side : Side) (r : Request) : Visited s start w →
      w₁.store = w.store → Visited s start ((s.respond side r).run w₁).2

theorem Visited.inOrder (h : s.Visited w w') (hr : S.Realizes s.store)
    (hw : InOrder S s.limits.maxPolicies w.store) : InOrder S s.limits.maxPolicies w'.store := by
  induction h with
  | start => exact hw
  | @request w₁ w₂ side r _ hsame ih => exact keeps_respond hr side r w₂ _ _ rfl (hsame ▸ ih)

end Service

namespace Service

variable {κ : Type} {s : Service OpenStore κ} {w w' : World OpenStore κ}

/-- Whatever is requested of a server whose store was empty, and whatever the other services and the
store's own server do meanwhile: all stored policies are proper, no two have the same key, and there
are no more than there may be. -/
theorem visited_orderly (hstore : s.store = OpenStore.store) (hw : w.store.Reachable)
    (hempty : w.store.policies = .ok []) (h : s.Visited w w') :
    ∃ ps, w'.store.policies = .ok ps ∧ Orderly s.limits.maxPolicies ps := by
  have hr : OpenStore.standing.Realizes s.store := hstore ▸ OpenStore.realizes
  obtain ⟨m, hs⟩ := hw.stands
  have hnone : m.policies = [] := Except.ok.inj ((OpenStore.policies_eq hs).symm.trans hempty)
  have horderly : Orderly s.limits.maxPolicies m.policies := by
    rw [hnone]
    exact ⟨fun p hp => absurd hp List.not_mem_nil, List.nodup_nil, Nat.zero_le _⟩
  obtain ⟨m', hs', hm'⟩ := h.inOrder hr ⟨m, hs, horderly⟩
  exact ⟨m'.policies, OpenStore.policies_eq hs', hm'⟩

/-- Where there may be one policy, a second one is not stored. -/
theorem visited_orderly_two_requests :
    let p : Policy := ⟨⟨"a", "01"⟩, ⟨"b", "02", "tcp", ⟨80, 81⟩⟩⟩
    let s := countingDesk ["a", "b"] { maxPolicies := 1 }
    morning.store.Reachable ∧ morning.store.policies = .ok [] ∧ ∃ w, s.Visited morning w ∧
      w.store.policies = .ok [p] ∧ Orderly 1 [p] := by
  intro p s
  let q : Policy := ⟨⟨"b", ""⟩, ⟨"a", "", "udp", ⟨53, 53⟩⟩⟩
  have hw : morning.store.Reachable := .memory .oneByte 3
  have hempty : morning.store.policies = .ok [] := by decide
  have hvisited : s.Visited morning _ :=
    .request .external (submission [q]) (.request .external (submission [p]) .start rfl) rfl
  have hstored : ((s.respond .external (submission [q])).run
      ((s.respond .external (submission [p])).run morning).2).2.store.policies = .ok [p] := by
    decide +kernel
  obtain ⟨ps, hps, horderly⟩ := visited_orderly (s := s) rfl hw hempty hvisited
  obtain rfl := Except.ok.inj (hstored.symm.trans hps)
  exact ⟨hw, hempty, _, hvisited, hstored, horderly⟩

end Service
end NetworkPolicy
