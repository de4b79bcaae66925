import NetworkPolicy.Proofs.Json.Records
import NetworkPolicy.Proofs.OrderedMap

/-! Values that their text brings back: what is written of them is read as the same value, and is
one line. -/
namespace NetworkPolicy.Json

open OrderedMap (Increasing)

/-! ### Values that are read as they were written -/

mutual

/-- A value without floats as programs hold it: its numbers are integers of 64 bits, and the members
of its objects are in the order of their distinct keys. Values may be nested to any depth. -/
def Exact : Json → Prop
  | .number (.natural n) => n < Nat.pow 2 64
  | .number (.negative n) => -(Nat.pow 2 63 : Int) ≤ n ∧ n < 0
  | .number (.float _) => False
  | .list es => ExactElements es
  | .object ms => Increasing ms ∧ ExactMembers ms
  | _ => True

def ExactElements : List Json → Prop
  | [] => True
  | v :: vs => Exact v ∧ ExactElements vs

def ExactMembers : List (String × Json) → Prop
  | [] => True
  | (_, v) :: ms => Exact v ∧ ExactMembers ms

end

theorem exactMembers_iff {ms : List (String × Json)} :
    ExactMembers ms ↔ ∀ m ∈ ms, m.2.Exact := by
  induction ms with
  | nil => exact ⟨fun _ _ h => (nomatch h), fun _ => trivial⟩
  | cons m ms ih => rw [ExactMembers, ih, List.forall_mem_cons]

mutual

theorem Exact.integral : ∀ {v : Json}, v.Exact → v.Integral
  | .null, _ | .bool _, _ | .text _, _ => trivial
  | .number (.natural _), _ | .number (.negative _), _ => trivial
  | .list _, h => ExactElements.integral h
  | .object _, h => ExactMembers.integral h.2

theorem ExactElements.integral : ∀ {vs : List Json}, ExactElements vs → IntegralElements vs
  | [], _ => trivial
  | _ :: _, h => ⟨Exact.integral h.1, ExactElements.integral h.2⟩

theorem ExactMembers.integral : ∀ {ms : List (String × Json)}, ExactMembers ms → IntegralMembers ms
  | [], _ => trivial
  | _ :: _, h => ⟨Exact.integral h.1, ExactMembers.integral h.2⟩

end

mutual

theorem Exact.canonical_eq : ∀ {v : Json}, v.Exact → v.canonical = v
  | .null, _ | .bool _, _ | .text _, _ | .number _, _ => rfl
  | .list _, h => congrArg list (ExactElements.canonical_eq h)
  | .object _, h => by
    rw [canonical, ExactMembers.canonical_eq h.2, sorted, h.1.ofEntries_eq]

theorem ExactElements.canonical_eq : ∀ {vs : List Json}, ExactElements vs →
    canonicalElements vs = vs
  | [], _ => rfl
  | _ :: _, h => by
    rw [canonicalElements, Exact.canonical_eq h.1, ExactElements.canonical_eq h.2]

theorem ExactMembers.canonical_eq : ∀ {ms : List (String × Json)}, ExactMembers ms →
    canonicalMembers ms = ms
  | [], _ => rfl
  | _ :: _, h => by
    rw [canonicalMembers, Exact.canonical_eq h.1, ExactMembers.canonical_eq h.2]

end

theorem Numeral.value_negative {n : Int} (hlow : -(Nat.pow 2 63 : Int) ≤ n) (hneg : n < 0) :
    (Number.negative n).numeral.value = .ok (.negative n) := by
  have hbound : n.natAbs ≤ Nat.pow 2 63 := by omega
  have hpos : 0 < n.natAbs := by omega
  have hfits : n.natAbs < Nat.pow 2 64 := Nat.lt_of_le_of_lt hbound (by decide)
  have habsorb : absorb 0 (decimals n.natAbs) = (n.natAbs, []) := absorb_decimals hfits
  simp [value, Number.numeral, habsorb, hpos, hbound, abs_of_neg hneg]

mutual

/-- A value is read from its tree. -/
theorem Exact.value_document : ∀ {v : Json}, v.Exact → Reader.value v.document = .ok v
  | .null, _ | .bool _, _ | .text _, _ => rfl
  | .number (.natural _), h => by
    rw [document, Reader.value, Numeral.value_natural h]
    rfl
  | .number (.negative _), h => by
    rw [document, Reader.value, Numeral.value_negative h.1 h.2]
    rfl
  | .list _, h => by
    rw [document, Reader.value, ExactElements.values_documents h]
    rfl
  | .object _, h => by
    rw [document, Reader.value, ExactMembers.values_documents h.2]
    rfl

theorem ExactElements.values_documents : ∀ {vs : List Json}, ExactElements vs →
    Reader.values (elementDocuments vs) = .ok vs
  | [], _ => rfl
  | _ :: _, h => by
    rw [elementDocuments, Reader.values, Exact.value_document h.1,
      ExactElements.values_documents h.2]
    rfl

theorem ExactMembers.values_documents : ∀ {ms : List (String × Json)}, ExactMembers ms →
    Reader.namedValues (memberDocuments ms) = .ok ms
  | [], _ => rfl
  | _ :: _, h => by
    rw [memberDocuments, Reader.namedValues, Exact.value_document h.1,
      ExactMembers.values_documents h.2]
    rfl

end

/-! ### No control characters are written -/

/-- No character is a control character of ASCII. -/
def Visible (cs : List Char) : Prop := ∀ c ∈ cs, ' ' ≤ c

theorem Visible.append {cs ds : List Char} (hcs : Visible cs) (hds : Visible ds) :
    Visible (cs ++ ds) :=
  List.forall_mem_append.mpr ⟨hcs, hds⟩

theorem Visible.cons {c : Char} {cs : List Char} (hc : ' ' ≤ c) (hcs : Visible cs) :
    Visible (c :: cs) :=
  List.forall_mem_cons.mpr ⟨hc, hcs⟩

theorem visible_nil : Visible [] := fun _ h => nomatch h

theorem visible_of_all {cs : List Char} (h : (cs.all fun c => decide (' ' ≤ c)) = true) :
    Visible cs :=
  fun c hc => of_decide_eq_true (List.all_eq_true.mp h c hc)

theorem le_digitChar {d : Nat} (h : d < 16) : ' ' ≤ Nat.digitChar d := by
  revert d
  decide

theorem visible_quotedChar (c : Char) : Visible (quotedChar c) := by
  unfold quotedChar
  split
  iterate 7 exact visible_of_all rfl
  split_ifs with hcontrol
  · have hc : c.toNat < 32 := hcontrol
    have hhigh : ' ' ≤ Nat.digitChar (c.toNat / 16) := le_digitChar (by omega)
    have hlow : ' ' ≤ Nat.digitChar (c.toNat % 16) := le_digitChar (by omega)
    have hstart : Visible ['\\', 'u', '0', '0'] := visible_of_all rfl
    exact hstart.append (.cons hhigh (.cons hlow visible_nil))
  · exact .cons (not_lt.mp hcontrol) visible_nil

theorem visible_quote (s : String) : Visible (quote s) := by
  have hmark : ' ' ≤ '"' := by decide
  have hchars : Visible (s.toList.flatMap quotedChar) := by
    intro c hc
    obtain ⟨a, -, ha⟩ := List.mem_flatMap.mp hc
    exact visible_quotedChar a c ha
  exact .cons hmark (hchars.append (.cons hmark visible_nil))

theorem visible_digits (n : Nat) : Visible (Nat.toDigits 10 n) := by
  intro c hc
  have hdigit : c.isDigit = true := Nat.isDigit_of_mem_toDigits (by decide) (by decide) hc
  have hzero : '0' ≤ c := by
    simp only [Char.isDigit, Bool.and_eq_true, decide_eq_true_eq] at hdigit
    exact hdigit.1
  have hspace : ' ' ≤ '0' := by decide
  exact hspace.trans hzero

theorem visible_commas {ps : List (List Char)} (h : ∀ p ∈ ps, Visible p) :
    Visible (commas ps) := by
  induction ps with
  | nil => exact visible_nil
  | cons p ps ih =>
    have hp : Visible p := h p List.mem_cons_self
    have hps := ih fun q hq => h q (List.mem_cons_of_mem _ hq)
    have hcomma : ' ' ≤ ',' := by decide
    cases ps with
    | nil => exact hp
    | cons q ps => exact hp.append (.cons hcomma hps)

theorem Visible.enclosed {first last : Char} {cs : List Char} (hfirst : ' ' ≤ first)
    (hcs : Visible cs) (hlast : ' ' ≤ last) : Visible (first :: cs ++ [last]) :=
  .cons hfirst (hcs.append (.cons hlast visible_nil))

mutual

theorem visible_chars : ∀ {v : Json}, v.Integral → Visible v.chars
  | .null, _ => visible_of_all rfl
  | .bool true, _ => visible_of_all rfl
  | .bool false, _ => visible_of_all rfl
  | .number (.natural n), _ => visible_digits n
  | .number (.negative n), _ => .cons (by decide) (visible_digits n.natAbs)
  | .text s, _ => visible_quote s
  | .list _, h => .enclosed (by decide) (visible_commas (visible_elementChars h)) (by decide)
  | .object _, h => .enclosed (by decide) (visible_commas (visible_memberChars h)) (by decide)

theorem visible_elementChars : ∀ {vs : List Json}, IntegralElements vs →
    ∀ p ∈ elementChars vs, Visible p
  | [], _ => fun _ h => nomatch h
  | _ :: _, h => List.forall_mem_cons.mpr ⟨visible_chars h.1, visible_elementChars h.2⟩

theorem visible_memberChars : ∀ {ms : List (String × Json)}, IntegralMembers ms →
    ∀ p ∈ memberChars ms, Visible p
  | [], _ => fun _ h => nomatch h
  | (k, _) :: _, h => List.forall_mem_cons.mpr
      ⟨(visible_quote k).append (.cons (by decide) (visible_chars h.1)), visible_memberChars h.2⟩

end

/-- The text of a value without floats is one line. -/
theorem newline_not_mem_chars {v : Json} (h : v.Integral) : '\n' ∉ v.chars := by
  intro hmem
  have hspace : ' ' ≤ '\n' := visible_chars h '\n' hmem
  revert hspace
  decide

end NetworkPolicy.Json
