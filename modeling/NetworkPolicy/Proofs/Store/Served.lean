import NetworkPolicy.Proofs.Store.Reading
import NetworkPolicy.Proofs.Store.Realization

/-! Database servers that stand for a store in memory, and what the endings of transactions on them
mean there. -/
namespace NetworkPolicy.Database

variable {ε α : Type} {t : Tables} {m : MemoryStore}

/-- The table of policies exists. -/
def HasPolicies (t : Tables) : Prop := t.hasPolicies = true

/-! ### Batches -/

namespace Tables

/-- A batch carried out on tables. -/
def write (full : ε) : Write → List Policy → Tables → Except ε Tables
  | .create, ps, t => ps.foldlM (createOne full) t
  | .delete, ps, t => .ok (deleteAll ps t)

/-- How a write ends on tables, `early` and `up` as for a store in memory. -/
def attempt (full late : ε) (w : Write) (ps : List Policy) (early up : Bool) (t : Tables) :
    Except ε (Unit × Tables) :=
  if early then .error late
  else
    match t.write full w ps with
    | .error e => .error e
    | .ok t' => if up then .error late else .ok ((), t')

theorem attempt_eq_ok {full late : ε} {w : Write} {ps : List Policy} {early up : Bool} {a : Unit}
    {t' : Tables} : t.attempt full late w ps early up = .ok (a, t') ↔
      early = false ∧ up = false ∧ t.write full w ps = .ok t' := by
  unfold attempt
  cases early <;> cases up <;> cases t.write full w ps <;> simp

/-- A batch ends on tables as it does in memory. -/
theorem Represents.write (h : t.Represents m) (hm : m.Valid) (full : ε) (w : Write)
    (ps : List Policy) :
    (∀ m', m.written w ps = .ok m' → ∃ t', t.write full w ps = .ok t' ∧ t'.Represents m') ∧
    ∀ e, m.written w ps = .error e → t.write full w ps = .error full := by
  cases w with
  | create => exact h.createAll hm full ps
  | delete =>
    refine ⟨?_, fun e he => nomatch he⟩
    rintro m' ⟨⟩
    exact ⟨_, rfl, h.deleteAll hm ps⟩

theorem represents_empty (l : TagLength) : Tables.Represents {} (.empty l 0) where
  groups := rfl
  rows := .nil
  ids := .nil
  fresh := fun _ hd => nomatch hd
  contents := .nil
  used := fun _ hd => nomatch hd

/-- Adding groups to the tables makes room in the store that they hold. -/
theorem Represents.provision (h : t.Represents m) (hm : m.Valid) (versions : List Int)
    (l : TagLength) (n : Nat) :
    (Tables.provision { t with versions := versions, hasPolicies := true } n).Represents
      (m.enlarge l n) := by
  have hgroups : ({ t with versions := versions, hasPolicies := true } : Tables).groups =
      groupRows m.groups := h.groups
  rw [provision_eq hgroups hm.groups]
  exact ⟨⟨rfl, h.rows, h.ids, h.fresh, h.contents⟩, h.used⟩

end Tables

/-! ### Statements -/

namespace Session

variable {P : Tables → Prop} {refused : Refusal → ε} {full : ε} {p : Policy} {ps : List Policy}

theorem yields_createOne {claim : String → Session ε Int} {ensure : Int → Session ε Int}
    {add : Int → Int → Session ε Unit}
    (hclaim : ∀ guid t, P t → Yields P refused (claim guid) t (t.claim full guid))
    (hensure : ∀ group t, P t →
      Yields P refused (ensure group) t (.ok (t.ensureDestination group p.destination)))
    (hadd : ∀ source destination t, P t →
      Yields P refused (add source destination) t (.ok ((), t.addPolicy source destination)))
    (ht : P t) :
    Yields P refused
      (do
        let source ← claim p.source.id
        let group ← claim p.destination.id
        let destination ← ensure group
        add source destination)
      t ((t.createOne full p).map ((), ·)) := by
  have h := hclaim p.source.id t ht
  unfold Tables.createOne
  cases hsource : t.claim full p.source.id with
  | error e => exact (hsource ▸ h).bindError
  | ok r =>
    refine (hsource ▸ h).bindOk fun ht => ?_
    have h := hclaim p.destination.id r.2 ht
    simp only [bind, Except.bind]
    cases hgroup : r.2.claim full p.destination.id with
    | error e => exact (hgroup ▸ h).bindError
    | ok r' =>
      exact (hgroup ▸ h).bindOk fun ht => (hensure r'.1 r'.2 ht).bindOk fun ht => hadd _ _ _ ht

theorem yields_deleteOne {lookup : String → Session ε (Option Int)}
    {find : Int → Session ε (Option Int)} {remove : Int → Int → Session ε Unit}
    {sweep : Int → Session ε Unit}
    (hlookup : ∀ guid t, P t → Yields P refused (lookup guid) t (.ok (t.groupOf? guid, t)))
    (hfind : ∀ group t, P t →
      Yields P refused (find group) t (.ok (t.destinationFor? group p.destination, t)))
    (hremove : ∀ source destination t, P t →
      Yields P refused (remove source destination) t (.ok ((), t.removePolicy source destination)))
    (hsweep : ∀ destination t, P t →
      Yields P refused (sweep destination) t (.ok ((), t.removeUnusedDestination destination)))
    (ht : P t) :
    Yields P refused
      (do
        match ← lookup p.source.id with
        | none => return []
        | some source =>
          match ← lookup p.destination.id with
          | none => return []
          | some group =>
            match ← find group with
            | none => return []
            | some destination =>
              remove source destination
              sweep destination
              return [source, group])
      t (.ok (Tables.deleteOne p t)) := by
  unfold Tables.deleteOne
  refine (hlookup _ t ht).bindOk fun ht => ?_
  cases t.groupOf? p.source.id with
  | none => exact yields_pure ht []
  | some source =>
    refine (hlookup _ t ht).bindOk fun ht => ?_
    cases t.groupOf? p.destination.id with
    | none => exact yields_pure ht []
    | some group =>
      refine (hfind group t ht).bindOk fun ht => ?_
      dsimp only
      cases t.destinationFor? group p.destination with
      | none => exact yields_pure ht []
      | some destination =>
        exact (hremove _ _ t ht).bindOk fun ht => (hsweep _ _ ht).bindOk fun ht => yields_pure ht _

theorem yields_createAll {create : Policy → Session ε Unit}
    (hcreate : ∀ p t, P t → Yields P refused (create p) t ((t.createOne full p).map ((), ·)))
    (ht : P t) :
    Yields P refused (ps.forM create) t ((t.write full .create ps).map ((), ·)) :=
  yields_forM hcreate ps ht

theorem yields_deleteAll {delete : Policy → Session ε (List Int)} {release : Int → Session ε Unit}
    (hdelete : ∀ p t, P t → Yields P refused (delete p) t (.ok (Tables.deleteOne p t)))
    (hrelease : ∀ id t, P t → Yields P refused (release id) t (.ok ((), t.release id)))
    (ht : P t) :
    Yields P refused
      (do
        let touched ← ps.mapM delete
        (increasing touched.flatten).forM release)
      t ((t.write full .delete ps).map ((), ·)) :=
  (yields_mapM hdelete ps ht).bindOk fun ht => yields_forM_ok hrelease _ ht

end Session

/-! ### Servers -/

/-- No transaction is open, one that is not committed leaves nothing, and the committed tables hold
what a store in memory holds. -/
structure Server.Holds (s : Server) (l : TagLength) (m : MemoryStore) : Prop where
  idle : s.working = none
  transactional : s.Transactional
  hasPolicies : HasPolicies s.tables
  represents : s.tables.Represents m
  valid : m.Valid
  tagLength : m.tagLength = l

/-- How servers stand for stores in memory. -/
def Server.standing (l : TagLength) (early : TimeLimit → Bool) : Standing Server where
  stands s m := s.Holds l m
  valid := Holds.valid
  later := Precedes
  refused := RefusedSince
  early _ := early

namespace Session

variable {l : TagLength} {early : TimeLimit → Bool} {s : Server} {refused : Refusal → ε}
  {toError : ε → StoreError} {ideal : Except StoreError.Kind (α × MemoryStore)}
  {x : Except ε (α × Tables)} {r : Except ε α × Server}

/-- A transaction ends as in memory if its effect is what happens there. -/
theorem Ending.ended (h : Ending refused s x r) (hs : s.Holds l m)
    (hok : ∀ a t', x = .ok (a, t') → HasPolicies t' ∧
      ∃ m', ideal = .ok (a, m') ∧ t'.Represents m' ∧ m'.Valid ∧ m'.tagLength = l)
    (herror : ∀ e, x = .error e → ideal = .error (toError e).kind) :
    (Server.standing l early).Ended s m ideal (r.1.mapError toError, r.2) := by
  cases h with
  | @committed a s' hpre hq hidle =>
    obtain ⟨hpolicies, m', hideal, hrep, hvalid, htag⟩ := hok a s'.tables rfl
    exact .done hideal hpre hq ⟨hidle, hs.transactional.mono hpre, hpolicies, hrep, hvalid, htag⟩
  | @abandoned x e s' hpre hidle htab hx =>
    have hs' : s'.Holds l m := ⟨hidle, hs.transactional.mono hpre, htab ▸ hs.hasPolicies,
      htab ▸ hs.represents, hs.valid, hs.tagLength⟩
    rcases hx with hx | ⟨hr, -⟩
    · exact .failed (herror e hx) hpre hs'
    · exact .refused hr hpre hs'

theorem Ending.ended_read {a : α} (h : Ending refused s (.ok (a, s.tables)) r) (hs : s.Holds l m) :
    (Server.standing l early).Ended s m (.ok (a, m)) (r.1.mapError toError, r.2) := by
  refine h.ended hs (fun b t' ht => ?_) fun e he => nomatch he
  cases ht
  exact ⟨hs.hasPolicies, m, rfl, hs.represents, hs.valid, hs.tagLength⟩

theorem Ending.ended_write {full late : ε} {w : Write} {ps : List Policy} {early' up : Bool}
    {r : Except ε Unit × Server}
    (h : Ending refused s (s.tables.attempt full late w ps early' up) r) (hs : s.Holds l m)
    (hkeeps : ∀ a t', s.tables.attempt full late w ps early' up = .ok (a, t') →
      HasPolicies t')
    (hfull : (toError full).kind = .capacity) (hlate : (toError late).kind = .timeout) :
    (Server.standing l early).Ended s m (m.attempt w ps early' up)
      (r.1.mapError toError, r.2) := by
  obtain ⟨hok, herror⟩ := hs.represents.write hs.valid full w ps
  unfold Tables.attempt at h hkeeps
  unfold MemoryStore.attempt
  cases early' with
  | true =>
    exact h.ended hs (fun a t' ht => nomatch ht) fun e he => by
      cases he
      rw [hlate]
      rfl
  | false =>
    cases hw : m.written w ps with
    | error e' =>
      simp only [herror e' hw] at h hkeeps
      exact h.ended hs (fun a t' ht => nomatch ht) fun e he => by
        cases he
        rw [hfull]
        rfl
    | ok m' =>
      obtain ⟨t', ht', hrep⟩ := hok m' hw
      obtain ⟨hvalid, htag, -⟩ := hs.valid.written hw
      simp only [ht'] at h hkeeps
      cases up with
      | true =>
        exact h.ended hs (fun a t' ht => nomatch ht) fun e he => by
          cases he
          rw [hlate]
          rfl
      | false =>
        refine h.ended hs (fun a u hu => ?_) fun e he => nomatch he
        have hpolicies := hkeeps a u hu
        cases hu
        exact ⟨hpolicies, m', rfl, hrep, hvalid, htag.trans hs.tagLength⟩

end Session
end NetworkPolicy.Database
