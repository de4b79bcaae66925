import NetworkPolicy.Policy.Tag
import NetworkPolicy.Proofs.Number.Digits

/-! Tags as texts: a tag is its group's id in capital hexadecimal digits, filled up to the width of its
length or, behind the last group of that length, as long as the id needs. So tags tell groups apart, and
those of one width stand in the order of their groups. -/
namespace NetworkPolicy.TagLength

variable {l : TagLength} {b i j : Nat}

/-! ### Lengths -/

theorem ofBytes?_eq_some : ofBytes? b = some l ↔ l.bytes = b := by
  constructor
  · intro h
    unfold ofBytes? at h
    split at h <;> cases h <;> rfl
  · rintro rfl
    cases l <;> rfl

theorem poolSize_bounds (l : TagLength) : 0 < l.poolSize ∧ l.poolSize < 2 ^ 63 := by
  cases l <;> decide

/-- Two digits for each byte. -/
theorem poolSize_eq (l : TagLength) : l.poolSize = 16 ^ (2 * l.bytes) - 1 := by
  have hdigits : 8 * l.bytes = 4 * (2 * l.bytes) := by omega
  have hpower : Nat.pow 2 (8 * l.bytes) = 16 ^ (2 * l.bytes) := by
    rw [Nat.pow_eq, hdigits, Nat.pow_mul]
  rw [poolSize, hpower]

theorem le_poolSize_iff : i ≤ l.poolSize ↔ i < 16 ^ (2 * l.bytes) := by
  have hpos : 0 < 16 ^ (2 * l.bytes) := Nat.pow_pos (by decide)
  rw [poolSize_eq, Nat.le_sub_one_iff_lt hpos]

/-! ### Texts -/

theorem toList_render (l : TagLength) (i : Nat) : (l.render i).toList =
    ((Nat.toDigits 16 i).map Char.toUpper).leftpad (2 * l.bytes) '0' :=
  String.toList_ofList

/-- A tag is read back as the id that it was made from, whatever the length of tags is. -/
theorem ofDigits_render (l : TagLength) (i : Nat) : Number.ofDigits 16 (l.render i).toList = i := by
  rw [toList_render, List.leftpad, Number.ofDigits_zeros, Number.ofDigits_map_toUpper,
    Number.ofDigits_toDigits (by decide) (by decide)]

theorem render_injective (l : TagLength) : Function.Injective l.render := by
  intro i j h
  have hread := congrArg (fun tag : String => Number.ofDigits 16 tag.toList) h
  simpa only [ofDigits_render] using hread

theorem isCapitalDigit_of_mem_render {c : Char} (h : c ∈ (l.render i).toList) :
    Number.IsCapitalDigit c := by
  rw [toList_render, List.leftpad, List.mem_append, List.mem_map] at h
  rcases h with h | ⟨digit, h, rfl⟩
  · rw [List.eq_of_mem_replicate h]
    exact Or.inl (by decide)
  · obtain ⟨d, hd, rfl⟩ := Number.mem_toDigits (by decide) h
    exact Number.isCapitalDigit_toUpper (by rw [Number.hexDigit?_digitChar hd]; rfl)

theorem length_render (l : TagLength) (i : Nat) :
    (l.render i).length = max (2 * l.bytes) (Nat.toDigits 16 i).length := by
  rw [← String.length_toList, toList_render, List.length_leftpad, List.length_map]

theorem width_le_length_render (l : TagLength) (i : Nat) : 2 * l.bytes ≤ (l.render i).length := by
  rw [length_render]
  exact Nat.le_max_left _ _

/-- Just the groups that the length provides have tags that fit its width. -/
theorem length_render_le_iff : (l.render i).length ≤ 2 * l.bytes ↔ i ≤ l.poolSize := by
  have hwidth : 0 < 2 * l.bytes := by cases l <;> decide
  rw [length_render, Nat.max_le, Nat.length_toDigits_le_iff (by decide) hwidth, le_poolSize_iff]
  exact and_iff_right (Nat.le_refl _)

theorem length_render_eq (h : i ≤ l.poolSize) : (l.render i).length = 2 * l.bytes :=
  Nat.le_antisymm (length_render_le_iff.mpr h) (l.width_le_length_render i)

theorem width_lt_length_render (h : l.poolSize < i) : 2 * l.bytes < (l.render i).length :=
  Nat.lt_of_not_le fun hle => Nat.not_le_of_lt h (length_render_le_iff.mp hle)

/-- Tags of the same width stand in the order of their ids. -/
theorem render_lt_render_iff (h : (l.render i).length = (l.render j).length) :
    l.render i < l.render j ↔ i < j := by
  have hlength : (l.render i).toList.length = (l.render j).toList.length := by
    rw [String.length_toList, String.length_toList, h]
  rw [String.lt_iff, Number.lt_iff_ofDigits_lt (fun _ => isCapitalDigit_of_mem_render)
    (fun _ => isCapitalDigit_of_mem_render) hlength, ofDigits_render, ofDigits_render]

/-- Tags of a valid length: no two ids have the same tag, and each tag is the whole id in capital
hexadecimal digits. Those of the groups that the length provides fill just its width and stand in their
order; all others are longer and so none of these. -/
theorem render_faithful {b : Nat} {l : TagLength} (hb : ofBytes? b = some l) :
    l.poolSize = 256 ^ b - 1 ∧ Function.Injective l.render ∧
      (∀ id, (∀ c ∈ (l.render id).toList, Number.IsCapitalDigit c) ∧
        Number.ofDigits 16 (l.render id).toList = id) ∧
      (∀ id ≤ l.poolSize, (l.render id).length = 2 * b) ∧
      (∀ id ≤ l.poolSize, ∀ id' ≤ l.poolSize, l.render id < l.render id' ↔ id < id') ∧
      ∀ id > l.poolSize, 2 * b < (l.render id).length ∧
        ∀ id' ≤ l.poolSize, l.render id ≠ l.render id' := by
  obtain rfl := ofBytes?_eq_some.mp hb
  refine ⟨?_, l.render_injective, ?_, fun id => length_render_eq, ?_, ?_⟩
  · rw [poolSize_eq, Nat.pow_mul]
  · exact fun id => ⟨fun c => isCapitalDigit_of_mem_render, l.ofDigits_render id⟩
  · intro id h id' h'
    exact render_lt_render_iff ((length_render_eq h).trans (length_render_eq h').symm)
  · intro id h
    have hlonger := width_lt_length_render h
    refine ⟨hlonger, fun id' h' heq => ?_⟩
    rw [heq, length_render_eq h'] at hlonger
    exact Nat.lt_irrefl _ hlonger

/-- Groups that a store with tags of two bytes assigned, shown with tags of one byte. -/
theorem render_faithful_shortened :
    ofBytes? 1 = some oneByte ∧ oneByte.poolSize = 255 ∧
      oneByte.render 10 = "0A" ∧ oneByte.render 160 = "A0" ∧ oneByte.render 2560 = "A00" ∧
      "0A".length = 2 ∧ (∀ c ∈ "0A".toList, Number.IsCapitalDigit c) ∧
      Number.ofDigits 16 "0A".toList = 10 ∧ Number.ofDigits 16 "A00".toList = 2560 ∧
      "0A" < "A0" ∧ 2 < "A00".length ∧ "A00" ≠ "A0" ∧
      oneByte.render (2 ^ 64 - 1) ≠ oneByte.render 255 := by
  have hsize : oneByte.poolSize = 255 := by decide
  have hfirst : oneByte.render 10 = "0A" := by decide
  have hlast : oneByte.render 160 = "A0" := by decide
  have hlong : oneByte.render 2560 = "A00" := by decide
  obtain ⟨-, hinjective, hread, hwidth, horder, hbeyond⟩ := render_faithful (b := 1) (l := oneByte) rfl
  rw [hsize] at hwidth horder hbeyond
  refine ⟨rfl, hsize, hfirst, hlast, hlong, hfirst ▸ hwidth 10 (by decide), hfirst ▸ (hread 10).1,
    hfirst ▸ (hread 10).2, hlong ▸ (hread 2560).2, ?_, hlong ▸ (hbeyond 2560 (by decide)).1, ?_, ?_⟩
  · rw [← hfirst, ← hlast]
    exact (horder 10 (by decide) 160 (by decide)).mpr (by decide)
  · rw [← hlong, ← hlast]
    exact (hbeyond 2560 (by decide)).2 160 (by decide)
  · exact hinjective.ne (by decide)

-- behind the last group, tags no longer stand in the order of their groups
example : oneByte.render 256 < oneByte.render 255 := by decide

end NetworkPolicy.TagLength
