import Mathlib.Data.List.Pairwise
import NetworkPolicy.Proofs.Json.Meaning

/-! Records read from values that mean the same. What is read does not depend on the order of the
members, on members of other names, or on those that hold what is there without them. -/
namespace NetworkPolicy.Json.Reader

/-! ### Fields -/

variable {α β : Type} {d d' : Document} {es es' : List Document} {ms ms' : List (Literal × Document)}
  {fields : List (Field α)} {slots : List Slot} {f g : Field α} {s : Slot} {blank : α}

/-- It does not matter which of the two fields is read first. -/
def Commute (f g : Field α) : Prop :=
  ∀ d e a, (f.read d a).toOption.bind (fun b => (g.read e b).toOption) =
    (g.read e a).toOption.bind fun b => (f.read d b).toOption

/-- The slot tells how values of the field may be rewritten. -/
structure Fits (blank : α) (f : Field α) (s : Slot) : Prop where
  name : f.name = s.name
  careful : ∀ d a b, f.read d a = .ok b → d.Whole
  same : ∀ d d' a, s.same d d' → (f.read d a).toOption = (f.read d' a).toOption
  omissible : ∀ d, s.omissible d → f.need = .never ∧ f.read d blank = .ok blank

theorem field_toOption {name : String} {r : Reader β} {set : β → α → α} {required : Bool}
    (d : Document) (a : α) :
    ((field name r set required).read d a).toOption = (r d).toOption.map (set · a) := by
  cases h : r d <;> simp [field, h, Except.map, Except.toOption]

theorem fits_field {name : String} {r : Reader β} {set : β → α → α} {required : Bool}
    {same : Document → Document → Prop} {omissible : Document → Prop} (hcareful : Careful r)
    (hsame : ∀ d d', same d d' → Agree r d d')
    (homissible : ∀ d, omissible d → required = false ∧ ∃ b, r d = .ok b ∧ set b blank = blank) :
    Fits blank (field name r set required) ⟨name, same, omissible⟩ where
  name := rfl
  careful d a b h := by
    obtain ⟨c, hc, -⟩ := map_eq_ok.mp h
    exact hcareful d c hc
  same d d' a h := by rw [field_toOption, field_toOption, hsame d d' h]
  omissible d h := by
    obtain ⟨rfl, b, hb, hset⟩ := homissible d h
    exact ⟨rfl, map_eq_ok.mpr ⟨b, hb, hset⟩⟩

theorem commute_field {γ : Type} {m n : String} {r : Reader β} {set : β → α → α} {p : Bool}
    {r' : Reader γ} {set' : γ → α → α} {q : Bool}
    (h : ∀ b c a, set' c (set b a) = set b (set' c a)) :
    Commute (field m r set p) (field n r' set' q) := by
  intro d e a
  simp only [field_toOption]
  cases (r d).toOption <;> cases (r' e).toOption <;> simp [h]

instance : Std.Symm (@Commute α) := ⟨fun _ _ h d e a => (h e d a).symm⟩

/-- Fields of distinct names that may be read in any order, with the slots that belong to them. -/
structure Fitting (fields : List (Field α)) (slots : List Slot) (blank : α) : Prop where
  fits : List.Forall₂ (Fits blank) fields slots
  distinct : (slots.map Slot.name).Nodup
  commute : fields.Pairwise Commute

/-! ### Members and elements as values of fields -/

/-- Reads values, each as the field beside it. -/
def fill (known : List (Field α × Document)) (a : Option α) : Option α :=
  known.foldl (fun a k => a.bind fun a => (k.1.read k.2 a).toOption) a

theorem fill_none (known : List (Field α × Document)) : fill known none = none := by
  induction known with
  | nil => rfl
  | cons k known ih => exact ih

theorem fill_cons (f : Field α) (d : Document) (known : List (Field α × Document)) (a : α) :
    fill ((f, d) :: known) (some a) = fill known (f.read d a).toOption := rfl

theorem fill_cons_eq_some {known : List (Field α × Document)} {a b : α} :
    fill ((f, d) :: known) (some a) = some b ↔
      ∃ c, f.read d a = .ok c ∧ fill known (some c) = some b := by
  rw [fill_cons]
  cases f.read d a with
  | error e => simp [Except.toOption, fill_none]
  | ok c => simp [Except.toOption]

/-- The order of the values does not matter where no field is read twice. -/
theorem fill_perm (h : fields.Pairwise Commute) {known known' : List (Field α × Document)}
    (hperm : known.Perm known') (hknown : ∀ k ∈ known, k.1 ∈ fields)
    (hnodup : (known.map (·.1.name)).Nodup) (a : Option α) : fill known a = fill known' a := by
  refine hperm.foldl_eq' (fun k hk l hl a => ?_) a
  by_cases hkl : k = l
  · rw [hkl]
  · have hname : k.1.name ≠ l.1.name := fun heq =>
      hkl (List.inj_on_of_nodup_map hnodup hk hl heq)
    have hfield : k.1 ≠ l.1 := fun heq => hname (heq ▸ rfl)
    have hcommute : Commute k.1 l.1 := h.forall (hknown k hk) (hknown l hl) hfield
    cases a with
    | none => rfl
    | some a => exact hcommute k.2 l.2 a

/-- The field with the value of each member; unknown members have none. -/
def known (fields : List (Field α)) (ms : List (Literal × Document)) : List (Field α × Document) :=
  ms.filterMap fun m => match m.1 with
    | .text key => (fields.find? (·.name == key)).map (·, m.2)
    | .faulty _ => none

/-- The names of the members that were read, in their order. -/
def names (known : List (Field α × Document)) : List String := known.map (·.1.name)

theorem known_field {key : String} (h : fields.find? (·.name == key) = some f) (d : Document)
    (ms : List (Literal × Document)) :
    known fields ((.text key, d) :: ms) = (f, d) :: known fields ms := by
  simp [known, h]

theorem known_other {key : String} (h : fields.find? (·.name == key) = none) (d : Document)
    (ms : List (Literal × Document)) :
    known fields ((.text key, d) :: ms) = known fields ms := by
  simp [known, h]

/-- All keys stand for texts, and the values that are passed over are whole. -/
def Passable (fields : List (Field α)) (ms : List (Literal × Document)) : Prop :=
  ∀ m ∈ ms, ∃ key, m.1 = .text key ∧ (fields.find? (·.name == key) = none → m.2.Whole)

theorem ignored_eq_ok : ignored d = .ok () ↔ d.Whole := by
  rw [← Document.skip_eq_ok, ignored]
  cases d.skip <;> simp [Except.mapError]

theorem name_of_find? {key : String} (h : fields.find? (·.name == key) = some f) : f.name = key := by
  simpa using List.find?_some h

theorem members_unknown {key : String} (h : fields.find? (·.name == key) = none)
    {seen : List String} {a : α} {x : List String × α} :
    members fields ((.text key, d) :: ms) seen a = .ok x ↔
      d.Whole ∧ members fields ms seen a = .ok x := by
  rw [← ignored_eq_ok, members, literal]
  simp only [bind, Except.bind, h]
  cases ignored d <;> simp

theorem members_known {key : String} (h : fields.find? (·.name == key) = some f)
    {seen : List String} {a : α} {x : List String × α} :
    members fields ((.text key, d) :: ms) seen a = .ok x ↔
      key ∉ seen ∧ ∃ b, f.read d a = .ok b ∧ members fields ms (key :: seen) b = .ok x := by
  rw [members, literal]
  simp only [bind, Except.bind, h]
  by_cases hseen : key ∈ seen
  · simp [hseen]
  · cases f.read d a <;> simp [hseen]

theorem passable_cons {key : String} :
    Passable fields ((.text key, d) :: ms) ↔
      (fields.find? (·.name == key) = none → d.Whole) ∧ Passable fields ms := by
  simp [Passable]

/-- Members are read exactly if every field is named at most once and its value is accepted. -/
theorem members_eq_ok {seen seen' : List String} {a a' : α} (hseen : seen.Nodup) :
    members fields ms seen a = .ok (seen', a') ↔
      Passable fields ms ∧ (names (known fields ms) ++ seen).Nodup ∧
        seen' = (names (known fields ms)).reverse ++ seen ∧
        fill (known fields ms) (some a) = some a' := by
  induction ms generalizing seen a with
  | nil =>
    have hall : Passable fields [] := fun _ h => nomatch h
    simp [members, known, names, fill, hall, hseen, eq_comm]
  | cons m ms ih =>
    obtain ⟨key, d⟩ := m
    cases key with
    | faulty f =>
      have hnone : ¬ Passable fields ((.faulty f, d) :: ms) := fun h => by
        obtain ⟨key, hkey, -⟩ := h _ List.mem_cons_self
        cases hkey
      constructor
      · intro h
        cases h
      · exact fun h => absurd h.1 hnone
    | text key =>
      rw [passable_cons]
      cases hfind : fields.find? (·.name == key) with
      | none =>
        rw [known_other hfind, members_unknown hfind, ih hseen]
        simp only [forall_const, and_assoc]
      | some f =>
        obtain rfl := name_of_find? hfind
        rw [known_field hfind, members_known hfind]
        constructor
        · rintro ⟨hnew, b, hb, h⟩
          obtain ⟨hpass, hnodup, rfl, hfill⟩ := (ih (List.nodup_cons.mpr ⟨hnew, hseen⟩)).mp h
          exact ⟨⟨fun hnone => absurd hnone (Option.some_ne_none f), hpass⟩,
            List.perm_middle.nodup_iff.mp hnodup, by simp [names],
            fill_cons_eq_some.mpr ⟨b, hb, hfill⟩⟩
        · rintro ⟨⟨-, hpass⟩, hnodup, rfl, hfill⟩
          have hnew : f.name ∉ seen := fun hmem =>
            (List.nodup_cons.mp hnodup).1 (List.mem_append_right _ hmem)
          obtain ⟨b, hb, hfill⟩ := fill_cons_eq_some.mp hfill
          refine ⟨hnew, b, hb, (ih (List.nodup_cons.mpr ⟨hnew, hseen⟩)).mpr
            ⟨hpass, List.perm_middle.nodup_iff.mpr hnodup, by simp [names], hfill⟩⟩

theorem firstMissing_eq_none {needs : List Reading.Need} {seen : List String} :
    Reading.firstMissing needs fields seen = none ↔
      ∀ f ∈ fields, f.need ∈ needs → f.name ∈ seen := by
  rw [Reading.firstMissing, List.findSome?_eq_none_iff]
  constructor
  · intro h f hf hneed
    obtain ⟨i, hi⟩ := List.mem_iff_getElem?.mp hf
    simpa [hneed] using h (f, i) (List.mk_mem_zipIdx_iff_getElem?.mpr hi)
  · rintro h ⟨f, i⟩ hi
    have hf : f ∈ fields := List.fst_mem_of_mem_zipIdx hi
    simpa using h f hf

/-- What makes an object the record that is read from it. -/
structure ReadFrom (fields : List (Field α)) (blank : α) (ms : List (Literal × Document)) (a : α) :
    Prop where
  passable : Passable fields ms
  distinct : (names (known fields ms)).Nodup
  complete : ∀ f ∈ fields, f.need = .always → f.name ∈ names (known fields ms)
  filled : fill (known fields ms) (some blank) = some a

theorem record_object {name : String} {a : α} {ending : ObjectEnd} :
    record name fields blank (.object ms ending) = .ok a ↔
      ending = .closed ∧ ReadFrom fields blank ms a := by
  rw [record, bind_eq_ok]
  constructor
  · rintro ⟨⟨seen, b⟩, hmembers, h⟩
    obtain ⟨_, hended, h⟩ := bind_eq_ok.mp h
    obtain ⟨hpass, hnodup, rfl, hfill⟩ := (members_eq_ok List.nodup_nil).mp hmembers
    split at h
    · cases h
    · rename_i hmissing
      cases h
      refine ⟨Document.objectFlaw_eq_none.mp (ended_eq_ok.mp hended), hpass, by simpa using hnodup,
        fun f hf hneed => ?_, hfill⟩
      simpa using firstMissing_eq_none.mp hmissing f hf (by simp [hneed])
  · rintro ⟨rfl, h⟩
    have hnodup : (names (known fields ms) ++ []).Nodup := by simpa using h.distinct
    have hmembers := (members_eq_ok List.nodup_nil).mpr ⟨h.passable, hnodup, rfl, h.filled⟩
    have hmissing : Reading.firstMissing [.always] fields
        ((names (known fields ms)).reverse ++ []) = none :=
      firstMissing_eq_none.mpr fun f hf hneed => by
        simpa using h.complete f hf (by simpa using hneed)
    refine ⟨_, hmembers, ?_⟩
    simp only [hmissing]
    rfl

/-! ### Objects that mean the same -/

theorem mem_fields_of_mem_known {k : Field α × Document} (h : k ∈ known fields ms) :
    k.1 ∈ fields := by
  obtain ⟨m, -, hk⟩ := List.mem_filterMap.mp h
  split at hk
  · obtain ⟨f, hf, rfl⟩ := Option.map_eq_some_iff.mp hk
    exact List.mem_of_find?_eq_some hf
  · cases hk

theorem exists_member_of_mem_names {n : String} (h : n ∈ names (known fields ms)) :
    ∃ m ∈ ms, m.1 = .text n := by
  obtain ⟨k, hk, rfl⟩ := List.mem_map.mp h
  obtain ⟨m, hm, hk⟩ := List.mem_filterMap.mp hk
  split at hk
  · rename_i key hkey
    obtain ⟨f, hf, rfl⟩ := Option.map_eq_some_iff.mp hk
    exact ⟨m, hm, by rw [hkey, name_of_find? hf]⟩
  · cases hk

theorem readFrom_unknown {key : String} {a : α} (h : fields.find? (·.name == key) = none) :
    ReadFrom fields blank ((.text key, d) :: ms) a ↔ d.Whole ∧ ReadFrom fields blank ms a := by
  have hknown := known_other h d ms
  constructor
  · rintro ⟨hpass, hdistinct, hcomplete, hfill⟩
    rw [hknown] at hdistinct hcomplete hfill
    obtain ⟨hd, hpass⟩ := passable_cons.mp hpass
    exact ⟨hd h, hpass, hdistinct, hcomplete, hfill⟩
  · rintro ⟨hd, hpass, hdistinct, hcomplete, hfill⟩
    rw [← hknown] at hdistinct hcomplete hfill
    exact ⟨passable_cons.mpr ⟨fun _ => hd, hpass⟩, hdistinct, hcomplete, hfill⟩

theorem readFrom_known {key : String} {a : α} (h : fields.find? (·.name == key) = some f) :
    ReadFrom fields blank ((.text key, d) :: ms) a ↔ Passable fields ms ∧
      (key :: names (known fields ms)).Nodup ∧
      (∀ g ∈ fields, g.need = .always → g.name ∈ key :: names (known fields ms)) ∧
      ∃ b, f.read d blank = .ok b ∧ fill (known fields ms) (some b) = some a := by
  have hknown := known_field h d ms
  have hnames : names (known fields ((.text key, d) :: ms)) =
      key :: names (known fields ms) := by rw [hknown, ← name_of_find? h]; rfl
  constructor
  · rintro ⟨hpass, hdistinct, hcomplete, hfill⟩
    rw [hnames] at hdistinct hcomplete
    rw [hknown] at hfill
    exact ⟨(passable_cons.mp hpass).2, hdistinct, hcomplete, fill_cons_eq_some.mp hfill⟩
  · rintro ⟨hpass, hdistinct, hcomplete, hfill⟩
    rw [← hnames] at hdistinct hcomplete
    refine ⟨passable_cons.mpr ⟨fun hnone => ?_, hpass⟩, hdistinct, hcomplete, ?_⟩
    · rw [h] at hnone
      cases hnone
    · rw [hknown]
      exact fill_cons_eq_some.mpr hfill

theorem names_of_fits (h : List.Forall₂ (Fits blank) fields slots) :
    fields.map (·.name) = slots.map Slot.name := by
  induction h with
  | nil => rfl
  | cons hf _ ih => rw [List.map_cons, List.map_cons, hf.name, ih]

namespace Fitting

theorem nodup_names (h : Fitting fields slots blank) : (fields.map (·.name)).Nodup := by
  rw [names_of_fits h.fits]
  exact h.distinct

theorem find?_unknown (h : Fitting fields slots blank) {key : String}
    (hkey : key ∉ slots.map Slot.name) : fields.find? (·.name == key) = none := by
  rw [← names_of_fits h.fits] at hkey
  refine List.find?_eq_none.mpr fun f hf heq => hkey ?_
  exact List.mem_map.mpr ⟨f, hf, eq_of_beq heq⟩

theorem find?_slot (h : Fitting fields slots blank) (hs : s ∈ slots) :
    ∃ f, Fits blank f s ∧ fields.find? (·.name == s.name) = some f := by
  obtain ⟨f, hf, hfits⟩ := exists_mem_of_forall₂ h.fits.flip s hs
  exact ⟨f, hfits, (find?_key_eq_some h.nodup_names).mpr ⟨hf, hfits.name⟩⟩

theorem readFrom_perm (h : Fitting fields slots blank) (hperm : ms.Perm ms') {a : α}
    (hread : ReadFrom fields blank ms a) : ReadFrom fields blank ms' a := by
  have hknown : (known fields ms).Perm (known fields ms') := hperm.filterMap _
  have hnames : (names (known fields ms)).Perm (names (known fields ms')) := hknown.map _
  refine ⟨fun m hm => hread.passable m (hperm.mem_iff.mpr hm),
    hnames.nodup_iff.mp hread.distinct,
    fun f hf hneed => hnames.mem_iff.mp (hread.complete f hf hneed), ?_⟩
  rw [← hread.filled]
  exact (fill_perm h.commute hknown (fun k hk => mem_fields_of_mem_known hk) hread.distinct _).symm

theorem readFrom_value (h : Fitting fields slots blank) (hs : s ∈ slots) (hd : s.same d d') {a : α} :
    ReadFrom fields blank ((.text s.name, d) :: ms) a ↔
      ReadFrom fields blank ((.text s.name, d') :: ms) a := by
  obtain ⟨f, hfits, hfind⟩ := h.find?_slot hs
  have hread : ∀ b, f.read d blank = .ok b ↔ f.read d' blank = .ok b := fun b => by
    rw [← toOption_eq_some, hfits.same d d' blank hd, toOption_eq_some]
  simp only [readFrom_known hfind, hread]

theorem readFrom_omitted (h : Fitting fields slots blank) (hs : s ∈ slots) (hd : s.omissible d)
    (hnew : ∀ m ∈ ms, m.1 ≠ .text s.name) {a : α} :
    ReadFrom fields blank ((.text s.name, d) :: ms) a ↔ ReadFrom fields blank ms a := by
  obtain ⟨f, hfits, hfind⟩ := h.find?_slot hs
  obtain ⟨hnever, hread⟩ := hfits.omissible d hd
  have hnames : s.name ∉ names (known fields ms) := fun hmem => by
    obtain ⟨m, hm, hkey⟩ := exists_member_of_mem_names hmem
    exact hnew m hm hkey
  have hother : ∀ g ∈ fields, g.need = .always → g.name ≠ s.name := fun g hg hneed hname => by
    have hg := (find?_key_eq_some h.nodup_names).mpr ⟨hg, hname⟩
    obtain rfl := Option.some.inj (hfind.symm.trans hg)
    rw [hnever] at hneed
    cases hneed
  rw [readFrom_known hfind]
  constructor
  · rintro ⟨hpass, hdistinct, hcomplete, b, hb, hfill⟩
    obtain rfl := Except.ok.inj (hread.symm.trans hb)
    exact ⟨hpass, (List.nodup_cons.mp hdistinct).2, fun g hg hneed =>
      (List.mem_cons.mp (hcomplete g hg hneed)).resolve_left (hother g hg hneed), hfill⟩
  · rintro ⟨hpass, hdistinct, hcomplete, hfill⟩
    exact ⟨hpass, List.nodup_cons.mpr ⟨hnames, hdistinct⟩,
      fun g hg hneed => List.mem_cons_of_mem _ (hcomplete g hg hneed), blank, hread, hfill⟩

theorem readFrom_iff (h : Fitting fields slots blank) (hsame : SameMembers slots ms ms') :
    ∀ a, ReadFrom fields blank ms a ↔ ReadFrom fields blank ms' a := by
  induction hsame with
  | perm hperm => exact fun a => ⟨h.readFrom_perm hperm, h.readFrom_perm hperm.symm⟩
  | unknown hkey hd =>
    intro a
    rw [readFrom_unknown (h.find?_unknown hkey), and_iff_right hd]
  | value hs hd => exact fun a => h.readFrom_value hs hd
  | omitted hs hd hnew => exact fun a => h.readFrom_omitted hs hd hnew
  | symm _ ih => exact fun a => (ih a).symm
  | trans _ _ ih ih' => exact fun a => (ih a).trans (ih' a)

end Fitting

/-! ### Lists of elements that mean the same -/

/-- What makes a list the record that is read from it. -/
inductive ListedFrom : List (Field α) → α → List Document → α → Prop where
  | nil {fields : List (Field α)} {a : α} : (∀ f ∈ fields, f.need = .never) →
      ListedFrom fields a [] a
  | cons {f : Field α} {fields : List (Field α)} {a b c : α} {d : Document} {es : List Document} :
      f.read d a = .ok c → ListedFrom fields c es b → ListedFrom (f :: fields) a (d :: es) b

theorem listedFrom_nil {a b : α} :
    ListedFrom fields a [] b ↔ (∀ f ∈ fields, f.need = .never) ∧ a = b :=
  ⟨fun h => by cases h with | nil hnever => exact ⟨hnever, rfl⟩, fun ⟨hnever, h⟩ => h ▸ .nil hnever⟩

theorem listedFrom_cons {a b : α} :
    ListedFrom (f :: fields) a (d :: es) b ↔
      ∃ c, f.read d a = .ok c ∧ ListedFrom fields c es b :=
  ⟨fun h => by cases h with | cons hd hes => exact ⟨_, hd, hes⟩, fun ⟨_, hd, hes⟩ => .cons hd hes⟩

theorem elements_eq_ok {a b : α} {unread : List (Field α)} {surplus : List Document}
    (h : elements fields es a = .ok (unread, surplus, b)) :
    (∃ read, fields = read ++ unread) ∧ (unread = [] ∨ surplus = []) ∧
      (surplus = [] → (∀ f ∈ unread, f.need = .never) → ListedFrom fields a es b) := by
  induction fields generalizing es a with
  | nil =>
    cases es <;> cases h
    · exact ⟨⟨[], rfl⟩, Or.inl rfl, fun _ hnever => .nil hnever⟩
    · exact ⟨⟨[], rfl⟩, Or.inl rfl, fun hsurplus => nomatch hsurplus⟩
  | cons f fields ih =>
    cases es with
    | nil =>
      cases h
      exact ⟨⟨[], rfl⟩, Or.inr rfl, fun _ hnever => .nil hnever⟩
    | cons d es =>
      obtain ⟨c, hc, h⟩ := bind_eq_ok.mp h
      obtain ⟨⟨read, hread⟩, hone, hlisted⟩ := ih h
      exact ⟨⟨f :: read, by rw [hread]; rfl⟩, hone, fun hsurplus hnever =>
        .cons hc (hlisted hsurplus hnever)⟩

theorem elements_of_listedFrom {a b : α} (h : ListedFrom fields a es b) :
    ∃ unread, elements fields es a = .ok (unread, [], b) ∧ ∀ f ∈ unread, f.need = .never := by
  induction h with
  | @nil fields a hnever =>
    refine ⟨fields, ?_, hnever⟩
    cases fields <;> rfl
  | cons hd _ ih =>
    obtain ⟨unread, helements, hnever⟩ := ih
    exact ⟨unread, bind_eq_ok.mpr ⟨_, hd, helements⟩, hnever⟩

-- the names of the fields that were read are those before the first unread one
theorem firstMissing_unread {read unread : List (Field α)}
    (hdistinct : ((read ++ unread).map (·.name)).Nodup) :
    Reading.firstMissing [.always, .unnamed] (read ++ unread)
        (((read ++ unread).take ((read ++ unread).length - unread.length)).map (·.name)) = none ↔
      ∀ f ∈ unread, f.need = .never := by
  have htake : (read ++ unread).take ((read ++ unread).length - unread.length) = read := by simp
  rw [htake, firstMissing_eq_none]
  rw [List.map_append, List.nodup_append] at hdistinct
  constructor
  · intro h f hf
    have hname : f.name ∉ read.map (·.name) := fun hmem =>
      hdistinct.2.2 f.name hmem f.name (List.mem_map_of_mem hf) rfl
    have hneed : f.need ∉ [Reading.Need.always, .unnamed] := fun hneed =>
      hname (h f (List.mem_append_right _ hf) hneed)
    cases hf : f.need <;> simp_all
  · intro h f hf hneed
    rcases List.mem_append.mp hf with hf | hf
    · exact List.mem_map_of_mem hf
    · rw [h f hf] at hneed
      exact absurd hneed (by decide)

theorem record_list {name : String} {a : α} {ending : ListEnd}
    (hdistinct : (fields.map (·.name)).Nodup) :
    record name fields blank (.list es ending) = .ok a ↔
      ending = .closed ∧ ListedFrom fields blank es a := by
  rw [record, bind_eq_ok]
  constructor
  · rintro ⟨⟨unread, surplus, b⟩, helements, h⟩
    obtain ⟨⟨read, rfl⟩, hone, hlisted⟩ := elements_eq_ok helements
    dsimp only at h
    split at h
    · rename_i hempty
      obtain rfl := List.isEmpty_iff.mp hempty
      split at h <;> cases h
      exact ⟨rfl, hlisted rfl fun f hf => absurd hf List.not_mem_nil⟩
    · rename_i hsome
      obtain ⟨_, hended, h⟩ := bind_eq_ok.mp h
      have hsurplus : surplus = [] := hone.resolve_left fun hnil =>
        hsome (List.isEmpty_iff.mpr hnil)
      split at h
      · cases h
      · rename_i hmissing
        cases h
        exact ⟨Document.listFlaw_eq_none.mp (ended_eq_ok.mp hended),
          hlisted hsurplus ((firstMissing_unread hdistinct).mp hmissing)⟩
  · rintro ⟨rfl, h⟩
    obtain ⟨unread, helements, hnever⟩ := elements_of_listedFrom h
    obtain ⟨⟨read, rfl⟩, -, -⟩ := elements_eq_ok helements
    refine ⟨_, helements, ?_⟩
    dsimp only
    split
    · rfl
    · rw [(firstMissing_unread hdistinct).mpr hnever]
      rfl

/-- The field still holds what is there without it. -/
def Unset (a : α) (f : Field α) (s : Slot) : Prop := ∀ d, s.omissible d → f.read d a = .ok a

theorem Unset.read {a c : α} {e : Document} (h : Unset a f s) (hcommute : Commute g f)
    (he : g.read e a = .ok c) : Unset c f s := by
  intro d hd
  have hboth := hcommute e d a
  rw [he, h d hd] at hboth
  exact toOption_eq_some.mp (hboth.trans (toOption_eq_some.mpr he))

theorem forall_unset_read {a c : α} {e : Document} (h : List.Forall₂ (Unset a) fields slots)
    (hcommute : ∀ f ∈ fields, Commute g f) (he : g.read e a = .ok c) :
    List.Forall₂ (Unset c) fields slots := by
  induction h with
  | nil => exact .nil
  | cons hf _ ih =>
    obtain ⟨hfirst, hrest⟩ := List.forall_mem_cons.mp hcommute
    exact .cons (hf.read hfirst he) (ih hrest)

theorem listedFrom_iff (hsame : SameElements slots es es')
    (hfits : List.Forall₂ (Fits blank) fields slots) (hcommute : fields.Pairwise Commute) {a : α}
    (hunset : List.Forall₂ (Unset a) fields slots) (b : α) :
    ListedFrom fields a es b ↔ ListedFrom fields a es' b := by
  induction hsame generalizing fields a with
  | nil => rfl
  | @value s slots d d' ds ds' hd _ ih =>
    cases hfits with
    | @cons f _ fields _ hf hfits =>
      obtain ⟨hfirst, hrest⟩ := List.pairwise_cons.mp hcommute
      obtain ⟨-, hunset⟩ := List.forall₂_cons.mp hunset
      have hread : ∀ c, f.read d a = .ok c ↔ f.read d' a = .ok c := fun c => by
        rw [← toOption_eq_some, hf.same d d' a hd, toOption_eq_some]
      rw [listedFrom_cons, listedFrom_cons]
      refine exists_congr fun c => ?_
      rw [← hread c]
      exact and_congr_right fun hc => ih hfits hrest (forall_unset_read hunset hfirst hc)
  | @omitted s slots d ds hd _ ih =>
    cases hfits with
    | @cons f _ fields _ hf hfits =>
      obtain ⟨-, hrest⟩ := List.pairwise_cons.mp hcommute
      obtain ⟨hset, hunset⟩ := List.forall₂_cons.mp hunset
      have hread : f.read d a = .ok a := hset d hd
      have hnever : f.need = .never := (hf.omissible d hd).1
      rw [listedFrom_cons, listedFrom_nil, List.forall_mem_cons, and_iff_right hnever,
        ← listedFrom_nil, ← ih hfits hrest hunset]
      constructor
      · rintro ⟨c, hc, h⟩
        obtain rfl := Except.ok.inj (hread.symm.trans hc)
        exact h
      · exact fun h => ⟨a, hread, h⟩

/-! ### Records -/

theorem Fitting.agree_record (h : Fitting fields slots blank) (hsame : SameRecord slots d d')
    (name : String) : Agree (record name fields blank) d d' := by
  induction hsame with
  | object hms =>
    refine agree_of_iff fun a => ?_
    rw [record_object, record_object, h.readFrom_iff hms a]
  | list hes =>
    have hunset : List.Forall₂ (Unset blank) fields slots :=
      h.fits.imp fun f s hf d hd => (hf.omissible d hd).2
    refine agree_of_iff fun a => ?_
    rw [record_list h.nodup_names, record_list h.nodup_names,
      listedFrom_iff hes h.fits h.commute hunset a]
  | refl => rfl
  | symm _ ih => exact ih.symm
  | trans _ _ ih ih' => exact ih.trans ih'

theorem whole_of_fill {known : List (Field α × Document)} {a b : α}
    (hknown : ∀ k ∈ known, ∀ a b, k.1.read k.2 a = .ok b → k.2.Whole)
    (h : fill known (some a) = some b) : ∀ k ∈ known, k.2.Whole := by
  induction known generalizing a with
  | nil => exact fun k hk => nomatch hk
  | cons k known ih =>
    obtain ⟨hfirst, hrest⟩ := List.forall_mem_cons.mp hknown
    obtain ⟨c, hc, h⟩ := fill_cons_eq_some.mp h
    exact List.forall_mem_cons.mpr ⟨hfirst _ _ hc, ih hrest h⟩

theorem ListedFrom.whole {a b : α} (hfields : ∀ f ∈ fields, ∀ d a b, f.read d a = .ok b → d.Whole)
    (h : ListedFrom fields a es b) : ∀ d ∈ es, d.Whole := by
  induction h with
  | nil => exact fun d hd => nomatch hd
  | cons hd _ ih =>
    obtain ⟨hfirst, hrest⟩ := List.forall_mem_cons.mp hfields
    exact List.forall_mem_cons.mpr ⟨hfirst _ _ _ hd, ih hrest⟩

theorem record_shape {name : String} {a : α} (h : record name fields blank d = .ok a) :
    (∃ ms ending, d = .object ms ending) ∨ ∃ es ending, d = .list es ending := by
  unfold record at h
  split at h
  · exact Or.inl ⟨_, _, rfl⟩
  · exact Or.inr ⟨_, _, rfl⟩
  · exact absurd h wrong_ne_ok

theorem Fitting.careful_record (h : Fitting fields slots blank) (name : String) :
    Careful (record name fields blank) := by
  have hfields : ∀ f ∈ fields, ∀ d a b, f.read d a = .ok b → d.Whole := fun f hf => by
    obtain ⟨s, -, hfits⟩ := exists_mem_of_forall₂ h.fits f hf
    exact hfits.careful
  intro d a hd
  rcases record_shape hd with ⟨ms, ending, rfl⟩ | ⟨es, ending, rfl⟩
  · obtain ⟨rfl, hread⟩ := record_object.mp hd
    refine ⟨Document.wholeMembers_iff.mpr fun m hm => ?_, rfl⟩
    obtain ⟨key, hkey, hother⟩ := hread.passable m hm
    cases hfind : fields.find? (·.name == key) with
    | none => exact hother hfind
    | some f =>
      have hknown : (f, m.2) ∈ known fields ms :=
        List.mem_filterMap.mpr ⟨m, hm, by simp [hkey, hfind]⟩
      exact whole_of_fill (fun k hk => hfields k.1 (mem_fields_of_mem_known hk) k.2) hread.filled
        _ hknown
  · obtain ⟨rfl, hlisted⟩ := (record_list h.nodup_names).mp hd
    exact ⟨Document.wholeElements_iff.mpr (hlisted.whole hfields), rfl⟩

end NetworkPolicy.Json.Reader
