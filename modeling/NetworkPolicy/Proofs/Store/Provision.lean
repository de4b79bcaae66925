import NetworkPolicy.Proofs.Store.Persistence
import NetworkPolicy.Proofs.Store.Undisturbed

/-! Which groups a store has once it is opened, on whatever groups its tables held before, and how many
applications a store can hold that was opened on nothing. -/
namespace NetworkPolicy

/-! ### Merging rows -/

section Merge

variable {α : Type} {key : α → Int} {x y : α} {xs ys : List α}

/-- Rows merged by increasing key; of rows with one key the first is kept. -/
private def mergeKeyed (key : α → Int) (xs ys : List α) : List α :=
  (xs.merge ys fun a b => key a ≤ key b).eraseRepsBy fun a b => key a == key b

private theorem mergeKeyed_of_pairwise (h : xs.Pairwise fun a b => key a < key b) :
    xs.eraseRepsBy (fun a b => key a == key b) = xs := by
  refine eraseRepsBy_eq_self (h.imp fun hab => ?_)
  rw [beq_eq_false_iff_ne]
  omega

/-- A row below all others comes first, and nothing is erased for it. -/
private theorem eraseReps_cons_of_lt (h : ∀ z ∈ xs, key x < key z) :
    (x :: xs).eraseRepsBy (fun a b => key a == key b) =
      x :: xs.eraseRepsBy fun a b => key a == key b := by
  refine eraseRepsBy_cons fun z hz => ?_
  have := h z hz
  rw [beq_eq_false_iff_ne]
  omega

private theorem mergeKeyed_cons_of_lt (hx : ∀ z ∈ xs, key x < key z) (hxy : key x < key y)
    (hy : ∀ z ∈ ys, key y < key z) :
    mergeKeyed key (x :: xs) (y :: ys) = x :: mergeKeyed key xs (y :: ys) := by
  unfold mergeKeyed
  rw [List.cons_merge_cons_pos _ _ _ (by simpa using hxy.le)]
  refine eraseReps_cons_of_lt fun z hz => ?_
  rcases List.mem_merge.mp hz with hz | hz
  · exact hx z hz
  · rcases List.mem_cons.mp hz with rfl | hz
    · exact hxy
    · exact hxy.trans (hy z hz)

private theorem mergeKeyed_cons_of_gt (hx : ∀ z ∈ xs, key x < key z) (hxy : key y < key x)
    (hy : ∀ z ∈ ys, key y < key z) :
    mergeKeyed key (x :: xs) (y :: ys) = y :: mergeKeyed key (x :: xs) ys := by
  unfold mergeKeyed
  rw [List.cons_merge_cons_neg _ _ _ (by simpa using hxy)]
  refine eraseReps_cons_of_lt fun z hz => ?_
  rcases List.mem_merge.mp hz with hz | hz
  · rcases List.mem_cons.mp hz with rfl | hz
    · exact hxy
    · exact hxy.trans (hx z hz)
  · exact hy z hz

/-- The second of two rows with one key is next in turn, and erased. -/
private theorem mergeKeyed_cons_of_eq (hx : ∀ z ∈ xs, key x < key z) (hxy : key x = key y)
    (hy : ∀ z ∈ ys, key y < key z) :
    mergeKeyed key (x :: xs) (y :: ys) = x :: mergeKeyed key xs ys := by
  have hnext : xs.merge (y :: ys) (fun a b => key a ≤ key b) =
      y :: xs.merge ys fun a b => key a ≤ key b := by
    cases xs with
    | nil => simp
    | cons z zs =>
      have hz := hx z List.mem_cons_self
      exact List.cons_merge_cons_neg _ _ _ (by simpa [← hxy] using hz)
  unfold mergeKeyed
  rw [List.cons_merge_cons_pos _ _ _ (by simp [hxy]), hnext, eraseRepsBy_cons_cons,
    if_pos (by simp [hxy])]
  refine eraseReps_cons_of_lt fun z hz => ?_
  rcases List.mem_merge.mp hz with hz | hz
  · exact hx z hz
  · exact hxy ▸ hy z hz

/-- Of two rows with one key only the former's is kept. -/
private theorem mergeKeyed_spec (hxs : xs.Pairwise fun a b => key a < key b)
    (hys : ys.Pairwise fun a b => key a < key b) :
    ((mergeKeyed key xs ys).Pairwise fun a b => key a < key b) ∧
      ∀ z, z ∈ mergeKeyed key xs ys ↔ z ∈ xs ∨ z ∈ ys ∧ ∀ x ∈ xs, key x ≠ key z := by
  have hcons : ∀ {z : α} {zs : List α}, (∀ w ∈ zs, key z < key w) →
      (zs.Pairwise fun a b => key a < key b) → (z :: zs).Pairwise fun a b => key a < key b :=
    fun hz hzs => List.pairwise_cons.mpr ⟨hz, hzs⟩
  induction xs generalizing ys with
  | nil => simp [mergeKeyed, mergeKeyed_of_pairwise hys, hys]
  | cons x xs ihx =>
    obtain ⟨hx, hxs'⟩ := List.pairwise_cons.mp hxs
    induction ys with
    | nil => simp [mergeKeyed, mergeKeyed_of_pairwise hxs, hxs]
    | cons y ys ihy =>
      obtain ⟨hy, hys'⟩ := List.pairwise_cons.mp hys
      rcases lt_trichotomy (key x) (key y) with hxy | hxy | hxy
      · obtain ⟨hsorted, hmem⟩ := ihx hxs' hys
        rw [mergeKeyed_cons_of_lt hx hxy hy]
        constructor
        · refine hcons (fun w hw => ?_) hsorted
          rcases (hmem w).mp hw with hw | ⟨hw, -⟩
          · exact hx w hw
          · rcases List.mem_cons.mp hw with rfl | hw
            · exact hxy
            · exact hxy.trans (hy w hw)
        · intro z
          have hbelow : z ∈ y :: ys → key x ≠ key z := by
            intro hz
            rcases List.mem_cons.mp hz with rfl | hz
            · omega
            · have := hy z hz
              omega
          rw [List.mem_cons, hmem, List.mem_cons (l := xs), List.forall_mem_cons]
          tauto
      · obtain ⟨hsorted, hmem⟩ := ihx hxs' hys'
        rw [mergeKeyed_cons_of_eq hx hxy hy]
        constructor
        · refine hcons (fun w hw => ?_) hsorted
          rcases (hmem w).mp hw with hw | ⟨hw, -⟩
          · exact hx w hw
          · exact hxy ▸ hy w hw
        · intro z
          have hbelow : z ∈ ys → key x ≠ key z := by
            intro hz
            have := hy z hz
            omega
          have hsame : z = y → key x = key z := fun hz => hz ▸ hxy
          rw [List.mem_cons, hmem, List.mem_cons (l := xs), List.mem_cons (l := ys),
            List.forall_mem_cons]
          tauto
      · obtain ⟨hsorted, hmem⟩ := ihy hys'
        rw [mergeKeyed_cons_of_gt hx hxy hy]
        constructor
        · refine hcons (fun w hw => ?_) hsorted
          rcases (hmem w).mp hw with hw | ⟨hw, -⟩
          · rcases List.mem_cons.mp hw with rfl | hw
            · exact hxy
            · exact hxy.trans (hx w hw)
          · exact hy w hw
        · intro z
          have hfresh : z = y → ∀ w ∈ x :: xs, key w ≠ key z := by
            rintro rfl w hw
            rcases List.mem_cons.mp hw with rfl | hw
            · omega
            · have := hx w hw
              omega
          rw [List.mem_cons, hmem, List.mem_cons (l := ys)]
          tauto

end Merge

/-! ### Adding groups -/

namespace Database

/-- The groups `1` to `n` have been added where they were missing: the old rows are among the new ones as
they were, and the others are free. -/
structure Provisioned (n : Nat) (old new : List GroupRow) : Prop where
  increasing : new.Pairwise fun a b => a.id < b.id
  mem_iff : ∀ g, g ∈ new ↔
    g ∈ old ∨ g.guid = none ∧ 1 ≤ g.id ∧ g.id ≤ n ∧ ∀ h ∈ old, h.id ≠ g.id

theorem Tables.provisioned {t : Tables} (h : t.groups.Pairwise fun a b => a.id < b.id) (n : Nat) :
    Provisioned n t.groups (t.provision n).groups := by
  let wanted := ((List.range n).map fun i : Nat => (i : Int) + 1).map
    fun id => (⟨id, none⟩ : GroupRow)
  have hwanted : wanted.Pairwise fun a b => a.id < b.id := by
    refine List.pairwise_map.mpr (List.pairwise_map.mpr (List.pairwise_lt_range.imp fun hab => ?_))
    dsimp only
    omega
  have hmem : ∀ g : GroupRow, g ∈ wanted ↔ g.guid = none ∧ 1 ≤ g.id ∧ g.id ≤ n := by
    intro g
    simp only [wanted, List.map_map, List.mem_map, List.mem_range, Function.comp_apply]
    constructor
    · intro hg
      obtain ⟨i, hi, rfl⟩ := hg
      refine ⟨rfl, ?_, ?_⟩ <;> dsimp only <;> omega
    · intro hg
      obtain ⟨hfree, h1, hn⟩ := hg
      refine ⟨(g.id - 1).toNat, by omega, ?_⟩
      have hid : ((g.id - 1).toNat : Int) + 1 = g.id := by omega
      rw [hid, ← hfree]
  obtain ⟨hsorted, hmerged⟩ := mergeKeyed_spec h hwanted
  refine ⟨hsorted, fun g => ?_⟩
  have hg := hmerged g
  rw [hmem, and_assoc, and_assoc] at hg
  exact hg

/-- Adding one group more or less makes a difference unless it is there. -/
theorem Provisioned.of_max {n : Nat} {old new : List GroupRow} (h : Provisioned (max 1 n) old new) :
    Provisioned n old new ↔ n ≠ 0 ∨ ∃ g ∈ old, g.id = 1 := by
  constructor
  · intro hn
    by_contra hnot
    obtain ⟨rfl, hmissing⟩ : n = 0 ∧ ∀ g ∈ old, g.id ≠ 1 := by simpa using hnot
    have hone : (⟨1, none⟩ : GroupRow) ∈ new :=
      (h.mem_iff _).mpr (Or.inr ⟨rfl, by simp, by simp, hmissing⟩)
    rcases (hn.mem_iff _).mp hone with hold | ⟨-, h1, h0, -⟩
    · exact hmissing _ hold rfl
    · simp at h0
  · intro hn
    rcases Nat.eq_zero_or_pos n with rfl | hpos
    · obtain ⟨g, hg, hid⟩ := hn.resolve_left (by simp)
      refine ⟨h.increasing, fun f => ?_⟩
      rw [h.mem_iff]
      constructor
      · intro hf
        refine hf.imp_right fun hf => ?_
        obtain ⟨-, h1, hmax, hnew⟩ := hf
        have := hnew g hg
        simp at hmax
        omega
      · intro hf
        refine hf.imp_right fun hf => ?_
        obtain ⟨-, h1, h0, -⟩ := hf
        simp at h0
        omega
    · rwa [Nat.max_eq_right hpos] at h

end Database

/-! ### Opening -/

namespace SqliteStore

open Database

variable {t t' : Tables} {n : Nat}

theorem prepared_groups {a : Unit} (h : prepared n t = .ok (a, t')) :
    t'.groups = (t.provision (max 1 n)).groups ∧ t'.destinations = t.destinations ∧
      t'.policies = t.policies := by
  unfold prepared at h
  cases hv : t.versions.head? with
  | none =>
    simp only [hv] at h
    split_ifs at h
    cases h
    exact ⟨rfl, rfl, rfl⟩
  | some v =>
    simp only [hv] at h
    split_ifs at h
    cases h
    exact ⟨rfl, rfl, rfl⟩

end SqliteStore

/-! ### Room for applications -/

namespace OpenStore

variable {o o' : OpenStore} {m : MemoryStore} {ps : List Policy} {n : Nat}

/-- The store can hold so many applications and no more, whatever calls were made: it lists no more tags,
and a batch that nothing hinders is created exactly if the applications that it and the stored policies
name are no more, which have the tags then. -/
def HoldsExactly (o : OpenStore) (n : Nat) : Prop :=
  ∀ rs : List StoreRequest, ∃ old tags, (store.answers rs o).2.policies = .ok old ∧
    (store.answers rs o).2.tags = .ok tags ∧ tags.length ≤ n ∧
    ∀ ps limit r o', store.create ps limit (store.answers rs o).2 = (r, o') →
      (store.answers rs o).2.Undisturbed o' limit →
      (r = .ok () ↔ ((old ++ ps).flatMap Policy.ends).toFinset.card ≤ n) ∧
      (r = .ok () → ∃ tags', o'.tags = .ok tags' ∧
        (tags'.map (·.id)).Perm ((old ++ ps).flatMap Policy.ends).dedup)

theorem stands_answers (hs : standing.stands o m) (rs : List StoreRequest) :
    ∃ m', standing.stands (store.answers rs o).2 m' ∧ m'.groups.size = m.groups.size := by
  let P := fun o => ∃ m', standing.stands o m' ∧ m'.groups.size = m.groups.size
  refine PolicyStore.answers_induction (P := P) (fun r o ho => ?_) rs ⟨m, hs, rfl⟩
  obtain ⟨u, hu, hsize⟩ := ho
  obtain ⟨v, hv, -, hsize'⟩ := realizes.answer hu r
  exact ⟨v, hv, hsize'.trans hsize⟩

theorem tags_perm {m' : MemoryStore} (hm : m.Valid) (h : ps.foldlM MemoryStore.createOne m = .ok m') :
    (m'.tags.map (·.id)).Perm ((m.policies ++ ps).flatMap Policy.ends).dedup := by
  obtain ⟨hm', -⟩ := hm.createAll h
  refine (List.perm_ext_iff_of_nodup hm'.tagsOf.nodup (List.nodup_dedup _)).mpr fun g => ?_
  rw [hm'.tagsOf.mem_iff, hm.named_createAll h, List.mem_dedup, List.mem_flatMap]

/-- A store holds as many applications as the one in memory that it stands for has groups. -/
theorem holdsExactly_of_stands (hs : standing.stands o m) : o.HoldsExactly m.groups.size := by
  intro rs
  obtain ⟨m', hs', hsize⟩ := stands_answers hs rs
  generalize (store.answers rs o).2 = o' at hs' ⊢
  have hm' := standing.valid hs'
  have hcount : m'.tags.length ≤ m.groups.size := by
    rw [← hsize, MemoryStore.tags, List.length_map]
    exact hm'.groups.length_le
  refine ⟨m'.policies, m'.tags, policies_eq hs', tags_eq hs', hcount, fun ps limit r o'' hcall hu => ?_⟩
  have hwrote : o'.Wrote .create ps r o'' := ⟨limit, hcall, hu⟩
  have hroom : (∃ e, ps.foldlM MemoryStore.createOne m' = .error e) ↔
      m.groups.size < ((m'.policies ++ ps).flatMap Policy.ends).toFinset.card := by
    rw [hm'.createAll_error_iff, crowded_iff, hsize]
  cases hw : ps.foldlM MemoryStore.createOne m' with
  | ok m'' =>
    obtain ⟨rfl, hs''⟩ := hwrote.done hs' hw
    refine ⟨iff_of_true rfl (Nat.not_lt.mp fun hlt => ?_), fun _ => ?_⟩
    · obtain ⟨e, he⟩ := hroom.mpr hlt
      rw [hw] at he
      cases he
    · exact ⟨m''.tags, tags_eq hs'', tags_perm hm' hw⟩
  | error e =>
    obtain ⟨rfl, -⟩ := hwrote.full hs' hw
    have hlt := hroom.mp ⟨e, hw⟩
    exact ⟨iff_of_false (by simp) (Nat.not_le.mpr hlt), fun h => by simp at h⟩

theorem holdsExactly_memory (l : TagLength) (n : Nat) :
    (memory (.empty l n)).HoldsExactly n :=
  holdsExactly_of_stands (m := .empty l n) ⟨rfl, MemoryStore.valid_empty l n⟩

theorem holdsExactly_postgres {server : Database.Server} {c : PostgresConfig} {s : PostgresStore}
    (htables : server.tables = {}) (hserver : server.Transactional)
    (h : PostgresStore.openOn c server = (.ok (), s)) :
    (postgres s).HoldsExactly (PostgresStore.poolSize c s.tagLength) := by
  have hempty : server.tables.Represents (.empty .oneByte 0) := by
    rw [htables]
    exact Database.Tables.represents_empty .oneByte
  obtain ⟨hs, -⟩ := PostgresStore.stands_of_openOn hserver (MemoryStore.valid_empty .oneByte 0)
    hempty h
  have hsize : ((MemoryStore.empty .oneByte 0).enlarge s.tagLength
      (PostgresStore.poolSize c s.tagLength)).groups.size = PostgresStore.poolSize c s.tagLength :=
    Nat.zero_max _
  have hholds := holdsExactly_of_stands (o := postgres s) hs
  rwa [hsize] at hholds

theorem holdsExactly_sqlite {server : Database.Server} {l : TagLength} {s : SqliteStore}
    (htables : server.tables = {}) (hserver : server.Transactional)
    (h : SqliteStore.openOn l n server = (.ok (), s)) : (sqlite s).HoldsExactly (max 1 n) := by
  have hempty : server.tables.Represents (.empty l 0) := by
    rw [htables]
    exact Database.Tables.represents_empty l
  obtain ⟨hs, -⟩ := SqliteStore.stands_of_openOn hserver (MemoryStore.valid_empty l 0) hempty
    (Or.inl (by rw [htables])) h
  have hsize : ((MemoryStore.empty l 0).enlarge l (max 1 n)).groups.size = max 1 n :=
    Nat.zero_max _
  have hholds := holdsExactly_of_stands (o := sqlite s) hs
  rwa [hsize] at hholds

end OpenStore

namespace SqliteStore

open Database

/-- Opening a file, whatever groups it holds: its rows stay as they are, and those of the groups `1` to `n`
that are missing are added, with group `1` even if `n` is zero. An opening that fails leaves the file as it
is; where nothing is refused and the version fits, none fails. Opened on nothing the store can hold as many
applications as it has been given groups, and so can one in memory and one in a Postgres database. -/
theorem opening_provisions (l : TagLength) {n : Nat} (hn : n ≤ maxGroup) {server : Server}
    (hserver : server.Transactional)
    (hkeys : server.tables.groups.Pairwise fun a b => a.id < b.id)
    {r : Except SqliteError Unit} {s : SqliteStore} (hopen : openOn l n server = (r, s)) :
    (r = .ok () → Provisioned (max 1 n) server.tables.groups s.server.tables.groups ∧
      (Provisioned n server.tables.groups s.server.tables.groups ↔
        n ≠ 0 ∨ ∃ g ∈ server.tables.groups, g.id = 1) ∧
      s.server.tables.destinations = server.tables.destinations ∧
      s.server.tables.policies = server.tables.policies) ∧
    (r ≠ .ok () → s.server.tables = server.tables) ∧
    (server.refuses = (fun _ => none) →
      (∀ v, server.tables.versions.head? = some v → v = schemaVersion) → r = .ok ()) ∧
    (server.tables = {} → r = .ok () → (OpenStore.sqlite s).HoldsExactly (max 1 n)) ∧
    (OpenStore.memory (.empty l n)).HoldsExactly n ∧
    ∀ (c : PostgresConfig) (server' : Server) (s' : PostgresStore), server'.tables = {} →
      server'.Transactional → PostgresStore.openOn c server' = (.ok (), s') →
      PostgresStore.poolSize c s'.tagLength = n → (OpenStore.postgres s').HoldsExactly n := by
  refine ⟨fun hr => ?_, fun hr => ?_, fun hnever hversion => ?_, fun htables hr => ?_,
    OpenStore.holdsExactly_memory l n, fun c server' s' htables hserver' hopen' hsize => ?_⟩
  · obtain ⟨-, hend⟩ := ending_openOn hserver hopen
    subst hr
    generalize hx : prepared n server.tables = x at hend
    cases hend with
    | committed =>
      obtain ⟨hgroups, hothers⟩ := prepared_groups hx
      have hprovisioned := hgroups ▸ Tables.provisioned hkeys (max 1 n)
      exact ⟨hprovisioned, hprovisioned.of_max, hothers⟩
  · cases r with
    | ok u => exact absurd rfl hr
    | error e => exact (openOn_error hserver hopen).1
  · have hok := (openOn_eq_ok (l := l) hnever hversion).mpr hn
    rwa [hopen] at hok
  · subst hr
    exact OpenStore.holdsExactly_sqlite htables hserver hopen
  · exact hsize ▸ OpenStore.holdsExactly_postgres htables hserver' hopen'

/-- A file with gaps between its groups, one of them below zero: two of three groups are missing. -/
theorem opening_provisions_gaps :
    let server : Server := { tables := {
      versions := [1]
      groups := [⟨-2, some "x"⟩, ⟨2, some "a"⟩, ⟨7, none⟩]
      hasPolicies := true } }
    3 ≤ maxGroup ∧ server.Transactional ∧
      (server.tables.groups.Pairwise fun a b => a.id < b.id) ∧
      ∃ s, openOn .oneByte 3 server = (.ok (), s) ∧
        Provisioned 3 server.tables.groups s.server.tables.groups ∧
        s.server.tables.groups =
          [⟨-2, some "x"⟩, ⟨1, none⟩, ⟨2, some "a"⟩, ⟨3, none⟩, ⟨7, none⟩] := by
  intro server
  have hn : 3 ≤ maxGroup := by decide
  have hserver : server.Transactional := Or.inr fun _ => ⟨rfl, rfl⟩
  have hkeys : server.tables.groups.Pairwise fun a b => a.id < b.id := by decide
  rcases hopen : openOn .oneByte 3 server with ⟨r, s⟩
  obtain ⟨hprovision, -, hopens, -⟩ := opening_provisions .oneByte hn hserver hkeys hopen
  have hversion : ∀ v, server.tables.versions.head? = some v → v = schemaVersion := by
    intro v hv
    exact (Option.some.inj hv).symm
  obtain rfl := hopens rfl hversion
  refine ⟨hn, hserver, hkeys, s, rfl, (hprovision rfl).1, ?_⟩
  have hgroups : s.server.tables.groups = (server.tables.provision 3).groups := by
    obtain rfl : (openOn .oneByte 3 server).2 = s := by rw [hopen]
    exact congrArg (·.groups) (addGroups_seq server.tables 3)
  rw [hgroups]
  simp [server, Tables.provision, Tables.addGroups, List.range, List.range.loop, List.eraseRepsBy,
    List.eraseRepsBy.loop]

/-- Of no groups that are asked for a file gets one: an application finds it there, and finds none in
memory or in a Postgres database. -/
theorem one_group_unasked :
    let p : Policy := ⟨⟨"a", ""⟩, ⟨"a", "", "tcp", ⟨80, 80⟩⟩⟩
    let s := (openOn .oneByte 0 {}).2
    let s' := (PostgresStore.openOn { poolSize := some 0 } {}).2
    (openOn .oneByte 0 {}).1 = .ok () ∧ ¬ Provisioned 0 [] s.server.tables.groups ∧
      (store.create [p] none s).1 = .ok () ∧
      (MemoryStore.store.create [p] none (.empty .oneByte 0)).1 =
        .error (.capacity "group pool exhausted") ∧
      (PostgresStore.store.create [p] none s').1 =
        .error (.capacity "no free rows in groups table") := by
  intro p s s'
  -- the kernel does not compute the groups that are added, so they are stated
  have hgroups := tables_openOn_fresh .oneByte (n := 0) (by decide)
  have hs : s = ⟨.oneByte, { tables := s.server.tables, sent := s.server.sent }⟩ := rfl
  let empty : Tables := .createMissing { versions := [schemaVersion] }
  have hnone : empty.provision 0 = _ :=
    Tables.provision_eq (p := { size := 0 }) rfl (GroupPool.valid_empty 0) 0
  have hs' : s' = ⟨.oneByte, 4500, { tables := empty.provision 0, sent := s'.server.sent }⟩ := rfl
  refine ⟨openOn_fresh_eq_ok.mpr (by decide), fun h => ?_, ?_, by decide +kernel, ?_⟩
  · have hone : (⟨1, none⟩ : GroupRow) ∈ s.server.tables.groups := by
      rw [hs, hgroups]
      decide
    rcases (h.mem_iff _).mp hone with hold | ⟨-, -, hid, -⟩
    · exact absurd hold List.not_mem_nil
    · simp at hid
  · rw [hs, hgroups]
    decide +kernel
  · rw [hs', hnone]
    decide +kernel

end SqliteStore
end NetworkPolicy
