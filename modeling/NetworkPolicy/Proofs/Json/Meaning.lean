import NetworkPolicy.Proofs.Json.Records
import NetworkPolicy.Proofs.Json.Spelling

/-! Values that mean the same to a reader. What a record is read as does not depend on the order of
its members, on members that it does not know, or on those that hold what is there without them. -/
namespace NetworkPolicy.Json

/-! ### What is read is whole -/

namespace Document

variable {d : Document} {es : List Document} {ms : List (Literal × Document)}

theorem wholeElements_iff : WholeElements es ↔ ∀ d ∈ es, d.Whole := by
  induction es with
  | nil => exact ⟨fun _ _ h => (nomatch h), fun _ => trivial⟩
  | cons d es ih => rw [WholeElements, ih, List.forall_mem_cons]

theorem wholeMembers_iff : WholeMembers ms ↔ ∀ m ∈ ms, m.2.Whole := by
  induction ms with
  | nil => exact ⟨fun _ _ h => (nomatch h), fun _ => trivial⟩
  | cons m ms ih => rw [WholeMembers, ih, List.forall_mem_cons]

theorem listFlaw_eq_none {ending : ListEnd} : ending.flaw? = none ↔ ending = .closed := by
  cases ending <;> simp [ListEnd.flaw?]

theorem objectFlaw_eq_none {ending : ObjectEnd} : ending.flaw? = none ↔ ending = .closed := by
  cases ending <;> simp [ObjectEnd.flaw?]

mutual

theorem skip_eq_ok : ∀ d : Document, d.skip = .ok () ↔ d.Whole
  | .null | .bool _ | .number _ | .string _ => ⟨fun _ => trivial, fun _ => rfl⟩
  | .list es ending => by
    rw [skip, Whole, ← skipElements_eq_ok es, ← listFlaw_eq_none]
    cases skipElements es <;> cases ending.flaw? <;> simp [bind, Except.bind]
  | .object ms ending => by
    rw [skip, Whole, ← skipMembers_eq_ok ms, ← objectFlaw_eq_none]
    cases skipMembers ms <;> cases ending.flaw? <;> simp [bind, Except.bind]
  | .flawed f => ⟨fun h => (nomatch h), fun h => absurd h id⟩

theorem skipElements_eq_ok : ∀ es : List Document, skipElements es = .ok () ↔ WholeElements es
  | [] => ⟨fun _ => trivial, fun _ => rfl⟩
  | d :: es => by
    rw [skipElements, WholeElements, ← skip_eq_ok d, ← skipElements_eq_ok es]
    cases skip d <;> simp [bind, Except.bind]

theorem skipMembers_eq_ok : ∀ ms : List (Literal × Document),
    skipMembers ms = .ok () ↔ WholeMembers ms
  | [] => ⟨fun _ => trivial, fun _ => rfl⟩
  | (_, d) :: ms => by
    rw [skipMembers, WholeMembers, ← skip_eq_ok d, ← skipMembers_eq_ok ms]
    cases skip d <;> simp [bind, Except.bind]

end

end Document

/-- How the values of a field may be rewritten, and for which of them the field may be left out. -/
structure Slot where
  name : String
  same : Document → Document → Prop
  omissible : Document → Prop

/-- Members that mean the same for a record of these fields. -/
inductive SameMembers (slots : List Slot) :
    List (Literal × Document) → List (Literal × Document) → Prop where
  | perm {ms ms' : List (Literal × Document)} : ms.Perm ms' → SameMembers slots ms ms'
  /-- Any value may stand under a key that names no field. -/
  | unknown {ms : List (Literal × Document)} {key : String} {d : Document} :
      key ∉ slots.map Slot.name → d.Whole → SameMembers slots ms ((.text key, d) :: ms)
  | value {ms : List (Literal × Document)} {s : Slot} {d d' : Document} : s ∈ slots →
      s.same d d' → SameMembers slots ((.text s.name, d) :: ms) ((.text s.name, d') :: ms)
  | omitted {ms : List (Literal × Document)} {s : Slot} {d : Document} : s ∈ slots →
      s.omissible d → (∀ m ∈ ms, m.1 ≠ .text s.name) →
      SameMembers slots ((.text s.name, d) :: ms) ms
  | symm {ms ms' : List (Literal × Document)} : SameMembers slots ms ms' → SameMembers slots ms' ms
  | trans {ms ms' ms'' : List (Literal × Document)} : SameMembers slots ms ms' →
      SameMembers slots ms' ms'' → SameMembers slots ms ms''

/-- Elements that mean the same for a record of these fields, which are not named there: only the
last ones may be left out. -/
inductive SameElements : List Slot → List Document → List Document → Prop where
  | nil {slots : List Slot} : SameElements slots [] []
  | value {s : Slot} {slots : List Slot} {d d' : Document} {ds ds' : List Document} :
      s.same d d' → SameElements slots ds ds' → SameElements (s :: slots) (d :: ds) (d' :: ds')
  | omitted {s : Slot} {slots : List Slot} {d : Document} {ds : List Document} : s.omissible d →
      SameElements slots ds [] → SameElements (s :: slots) (d :: ds) []

/-- Values that mean the same for a record of these fields. -/
inductive SameRecord (slots : List Slot) : Document → Document → Prop where
  | object {ms ms' : List (Literal × Document)} : SameMembers slots ms ms' →
      SameRecord slots (.object ms .closed) (.object ms' .closed)
  | list {es es' : List Document} : SameElements slots es es' →
      SameRecord slots (.list es .closed) (.list es' .closed)
  | refl {d : Document} : SameRecord slots d d
  | symm {d d' : Document} : SameRecord slots d d' → SameRecord slots d' d
  | trans {d d' d'' : Document} : SameRecord slots d d' → SameRecord slots d' d'' →
      SameRecord slots d d''

/-- Lists whose elements mean the same. -/
inductive SameList (R : Document → Document → Prop) : Document → Document → Prop where
  | list {es es' : List Document} : List.Forall₂ R es es' →
      SameList R (.list es .closed) (.list es' .closed)

namespace Reader

variable {α β : Type} {d d' : Document} {es es' : List Document} {ms ms' : List (Literal × Document)}

/-- The reader accepts no value that has a flaw. -/
def Careful (r : Reader α) : Prop := ∀ d a, r d = .ok a → d.Whole

/-- The reader reads the same from both values, or nothing from either. -/
def Agree (r : Reader α) (d d' : Document) : Prop := (r d).toOption = (r d').toOption

theorem Agree.eq_ok {r : Reader α} {a : α} (h : Agree r d d') (hd : r d = .ok a) :
    r d' = .ok a := by
  rw [← toOption_eq_some, ← h, toOption_eq_some, hd]

theorem agree_of_iff {r : Reader α} (h : ∀ a, r d = .ok a ↔ r d' = .ok a) : Agree r d d' :=
  Option.ext fun a => by rw [toOption_eq_some, toOption_eq_some, h a]

/-! ### Single values -/

theorem careful_text : Careful text := by
  intro d a h
  unfold text at h
  split at h
  · trivial
  · exact absurd h wrong_ne_ok

theorem careful_natural (bits : Nat) (want : String) : Careful (natural bits want) := by
  intro d a h
  unfold natural at h
  split at h
  · trivial
  · exact absurd h wrong_ne_ok

theorem careful_port : Careful port := by
  intro d a h
  obtain ⟨n, hn, -⟩ := map_eq_ok.mp h
  exact careful_natural _ _ d n hn

theorem careful_optional {r : Reader α} (hr : Careful r) : Careful (optional r) := by
  intro d a h
  unfold optional at h
  split at h
  · trivial
  · obtain ⟨b, hb, -⟩ := map_eq_ok.mp h
    exact hr _ b hb

/-! ### Lists -/

theorem ended_eq_ok {flaw : Option Flaw} : ended flaw = .ok () ↔ flaw = none := by
  cases flaw <;> simp [ended]

theorem list_closed_eq_ok {r : Reader α} {as : List α} :
    list r (.list es .closed) = .ok as ↔ List.Forall₂ (fun d a => r d = .ok a) es as := by
  rw [← mapM_eq_ok_iff, list]
  cases es.mapM r <;> simp [bind, Except.bind, ended, ListEnd.flaw?, pure, Except.pure]

theorem careful_list {r : Reader α} (hr : Careful r) : Careful (list r) := by
  intro d as h
  unfold list at h
  split at h
  · obtain ⟨as', has, h⟩ := bind_eq_ok.mp h
    obtain ⟨_, hended, -⟩ := bind_eq_ok.mp h
    refine ⟨Document.wholeElements_iff.mpr fun e he => ?_,
      Document.listFlaw_eq_none.mp (ended_eq_ok.mp hended)⟩
    obtain ⟨a, -, ha⟩ := exists_mem_of_forall₂ (mapM_eq_ok_iff.mp has) e he
    exact hr e a ha
  · exact absurd h wrong_ne_ok

theorem agree_list {r : Reader α} {R : Document → Document → Prop}
    (hr : ∀ d d', R d d' → Agree r d d') (h : SameList R d d') : Agree (list r) d d' := by
  obtain ⟨hes⟩ := h
  refine agree_of_iff fun as => ?_
  rw [list_closed_eq_ok, list_closed_eq_ok]
  induction hes generalizing as with
  | nil => rfl
  | @cons d d' es es' hd _ ih =>
    have hiff : ∀ a, r d = .ok a ↔ r d' = .ok a := fun a => by
      rw [← toOption_eq_some, hr d d' hd, toOption_eq_some]
    simp only [List.forall₂_cons_left_iff, hiff, ih]

end Reader
end NetworkPolicy.Json
