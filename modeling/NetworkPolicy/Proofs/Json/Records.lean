import NetworkPolicy.Proofs.Json.Trees
import NetworkPolicy.Proofs.Lists

/-! Records read from trees: a member sets its field, members of other names are passed over, and
what every field keeps holds of all that is read. -/
namespace NetworkPolicy.Json

/-! ### Integers -/

/-- The natural number with these digits, however many they are. -/
def ofDecimals (ds : List Nat) : Nat := ds.foldl (fun n d => n * 10 + d) 0

theorem ofDecimals_decimals (n : Nat) : ofDecimals (decimals n) = n := by
  rw [ofDecimals, decimals, List.foldl_map]
  simp only [Nat.mul_comm _ 10]
  exact Nat.ofDigitChars_ten_toDigits

theorem le_foldl_decimals (ds : List Nat) (n : Nat) : n ≤ ds.foldl (fun n d => n * 10 + d) n := by
  induction ds generalizing n with
  | nil => exact Nat.le_refl n
  | cons d ds ih =>
    have hrest : n * 10 + d ≤ ds.foldl (fun n d => n * 10 + d) (n * 10 + d) := ih _
    rw [List.foldl_cons]
    omega

-- digits are only dropped when the number of all of them does not fit
theorem Numeral.absorb_eq_foldl {ds : List Nat} {n : Nat}
    (h : ds.foldl (fun n d => n * 10 + d) n < Nat.pow 2 64) :
    absorb n ds = (ds.foldl (fun n d => n * 10 + d) n, []) := by
  induction ds generalizing n with
  | nil => rfl
  | cons d ds ih =>
    have hfits : n * 10 + d < Nat.pow 2 64 := Nat.lt_of_le_of_lt (le_foldl_decimals ds _) h
    rw [absorb, if_pos hfits]
    exact ih h

-- no digit of a number of 64 bits is dropped
theorem Numeral.absorb_decimals {n : Nat} (h : n < Nat.pow 2 64) :
    absorb 0 (decimals n) = (n, []) := by
  have hn : ofDecimals (decimals n) = n := ofDecimals_decimals n
  have hfits : ofDecimals (decimals n) < Nat.pow 2 64 := by rwa [hn]
  rw [absorb_eq_foldl hfits]
  exact congrArg (·, []) hn

theorem Numeral.value_natural {n : Nat} (h : n < Nat.pow 2 64) :
    (Number.natural n).numeral.value = .ok (.natural n) := by
  simp [value, Number.numeral, absorb_decimals h]

/-- The natural number that a numeral writes, of any size; none for one with a sign, a point or an
exponent. -/
def Numeral.natural? (n : Numeral) : Option Nat :=
  if n.integral && !n.negative then some (ofDecimals n.whole) else none

theorem Numeral.natural?_natural (n : Nat) : (Number.natural n).numeral.natural? = some n :=
  congrArg some (ofDecimals_decimals n)

/-- The first member of this name. -/
def Document.member? (name : String) : Document → Option Document
  | .object ms _ => (ms.find? fun m => m.1 == .text name).map (·.2)
  | _ => none

namespace Reader

variable {α β : Type} {fields : List (Field α)} {key name : String} {d : Document}
  {rest ms : List (Literal × Document)} {seen : List String} {a a' blank : α}

theorem port_natural (p : UInt16) : port (Json.natural p.toNat).document = .ok p := by
  have hp : p.toNat < Nat.pow 2 16 := p.toNat_lt
  have hvalue := Numeral.value_natural (n := p.toNat) (by
    have : Nat.pow 2 16 < Nat.pow 2 64 := by decide
    omega)
  have hread : Reader.natural 16 "u16" (Json.natural p.toNat).document = .ok p.toNat := by
    simp only [Json.natural, document, natural, hvalue, if_pos hp]
  rw [port, hread]
  simp [Except.map]

/-! ### Members -/

theorem members_field {β : Type} {r : Reader β} {set : β → α → α} {required : Bool} {b : β}
    (hfind : fields.find? (·.name == key) = some (field key r set required)) (hnew : key ∉ seen)
    (hread : r d = .ok b) :
    members fields ((.text key, d) :: rest) seen a =
      members fields rest (key :: seen) (set b a) := by
  have hseen : seen.contains key = false := by simpa using hnew
  have hkey : literal (.text key) = .ok key := rfl
  have hset : (field key r set required).read d a = .ok (set b a) := by
    simp [field, hread, Except.map]
  rw [members, hkey]
  simp only [bind, Except.bind, hfind, hseen, hset]
  rfl

theorem members_other (hfind : fields.find? (·.name == key) = none) (hskip : d.skip = .ok ()) :
    members fields ((.text key, d) :: rest) seen a = members fields rest seen a := by
  have hkey : literal (.text key) = .ok key := rfl
  rw [members, hkey]
  simp only [bind, Except.bind, hfind, ignored, hskip]
  rfl

theorem record_closed (hms : members fields ms [] blank = .ok (seen, a))
    (hall : Reading.firstMissing [.always] fields seen = none) :
    record name fields blank (.object ms .closed) = .ok a := by
  rw [record, hms]
  simp only [bind, Except.bind, ended, ObjectEnd.flaw?, hall]

theorem members_error {β : Type} {r : Reader β} {set : β → α → α} {required : Bool}
    {e : ReadError} (hfind : fields.find? (·.name == key) = some (field key r set required))
    (hnew : key ∉ seen) (hread : r d = .error e) :
    members fields ((.text key, d) :: rest) seen a = .error e := by
  have hseen : seen.contains key = false := by simpa using hnew
  have hkey : literal (.text key) = .ok key := rfl
  have hset : (field key r set required).read d a = .error e := by
    simp [field, hread, Except.map]
  rw [members, hkey]
  simp only [bind, Except.bind, hfind, hseen, hset]
  rfl

theorem record_error {e : ReadError} (hms : members fields ms [] blank = .error e) :
    record name fields blank (.object ms .closed) = .error e := by
  rw [record, hms]
  rfl

theorem record_missing {missing : String} {i : Nat}
    (hms : members fields ms [] blank = .ok (seen, a))
    (hfirst : Reading.firstMissing [.always] fields seen = some (i, missing)) :
    record name fields blank (.object ms .closed) =
      .error (.mismatch (.missingField missing)) := by
  rw [record, hms]
  simp only [bind, Except.bind, ended, ObjectEnd.flaw?, hfirst]

/-! ### What every field keeps -/

section Keeps

variable {P : α → Prop}

/-- Setting the field keeps `P`. -/
def Keeps (P : α → Prop) (f : Field α) : Prop :=
  ∀ d a a', f.read d a = .ok a' → P a → P a'

theorem keeps_field {β : Type} {Q : β → Prop} {r : Reader β} {set : β → α → α} {required : Bool}
    (hread : ∀ d b, r d = .ok b → Q b) (hset : ∀ b a, Q b → P a → P (set b a)) :
    Keeps P (field name r set required) := by
  intro d a a' h ha
  obtain ⟨b, hb, rfl⟩ := map_eq_ok.mp h
  exact hset b a (hread d b hb) ha

theorem members_keeps (hfields : ∀ f ∈ fields, Keeps P f) {seen' : List String}
    (h : members fields ms seen a = .ok (seen', a')) (ha : P a) : P a' := by
  induction ms generalizing seen a with
  | nil =>
    cases h
    exact ha
  | cons m ms ih =>
    obtain ⟨key, -, h⟩ := bind_eq_ok.mp h
    split at h
    · obtain ⟨-, -, h⟩ := bind_eq_ok.mp h
      exact ih h ha
    · rename_i f hfind
      split at h
      · cases h
      · obtain ⟨b, hb, h⟩ := bind_eq_ok.mp h
        exact ih h (hfields f (List.mem_of_find?_eq_some hfind) _ _ _ hb ha)

theorem elements_keeps {ds surplus : List Document} {unread : List (Field α)}
    (hfields : ∀ f ∈ fields, Keeps P f) (h : elements fields ds a = .ok (unread, surplus, a'))
    (ha : P a) : P a' := by
  induction fields generalizing ds a with
  | nil =>
    cases h
    exact ha
  | cons f fs ih =>
    cases ds with
    | nil =>
      cases h
      exact ha
    | cons d ds =>
      obtain ⟨b, hb, h⟩ := bind_eq_ok.mp h
      exact ih (fun g hg => hfields g (List.mem_cons_of_mem _ hg)) h
        (hfields f List.mem_cons_self _ _ _ hb ha)

theorem wrong_ne_ok {want : String} : wrong d want ≠ .ok a := by
  intro h
  cases d with
  | number n =>
    simp only [wrong] at h
    split at h <;> cases h
  | string s => cases s <;> cases h
  | null | bool | list | object | flawed => cases h

/-- What holds of the blank record and every field keeps holds of all records that are read. -/
theorem record_keeps (hfields : ∀ f ∈ fields, Keeps P f) (hblank : P blank)
    (h : record name fields blank d = .ok a) : P a := by
  unfold record at h
  split at h
  · obtain ⟨⟨seen, b⟩, hmembers, h⟩ := bind_eq_ok.mp h
    obtain ⟨-, -, h⟩ := bind_eq_ok.mp h
    have hb : P b := members_keeps hfields hmembers hblank
    split at h <;> cases h
    exact hb
  · obtain ⟨⟨unread, surplus, b⟩, helements, h⟩ := bind_eq_ok.mp h
    have hb : P b := elements_keeps hfields helements hblank
    dsimp only at h
    split at h
    · split at h <;> cases h
      exact hb
    · obtain ⟨-, -, h⟩ := bind_eq_ok.mp h
      split at h <;> cases h
      exact hb
  · exact absurd h wrong_ne_ok

theorem list_keeps {r : Reader α} {as : List α} (hr : ∀ d a, r d = .ok a → P a)
    (h : list r d = .ok as) : ∀ a ∈ as, P a := by
  unfold list at h
  split at h
  · obtain ⟨bs, hbs, h⟩ := bind_eq_ok.mp h
    obtain ⟨-, -, h⟩ := bind_eq_ok.mp h
    cases h
    intro b hb
    obtain ⟨e, -, he⟩ := mem_of_mapM_eq_ok hbs b hb
    exact hr e b he
  · exact absurd h wrong_ne_ok

end Keeps

/-- What a text is read as was read from a tree. -/
theorem exists_of_ofText {r : Reader α} {body : List Text.Symbol} (h : ofText r body = .ok a) :
    ∃ d, r d = .ok a := by
  rcases hdocument : Document.ofText body with ⟨d, surplus⟩
  rw [ofText, hdocument] at h
  obtain ⟨b, hb, h⟩ := bind_eq_ok.mp h
  cases surplus <;> cases h
  exact ⟨d, hb⟩

end Reader
end NetworkPolicy.Json
