import Mathlib.Data.List.Basic
import NetworkPolicy.Store.Sqlite

/-! Numbered parameters select what they are meant to: bound to the sources and then the destinations,
the condition on the ends of policies is true for those with a source among the first or a destination
among the second, also where a list is empty. -/
namespace NetworkPolicy.Database

theorem Truth.either_eq_true {a b : Truth} :
    Truth.either a b = some true ↔ a = some true ∨ b = some true := by
  rcases a with _ | _ | _ <;> rcases b with _ | _ | _ <;> simp [Truth.either]

theorem Cell.equals_eq_true {a b : Cell} :
    a.equals b = some true ↔ ∃ g, a = some g ∧ b = some g := by
  cases a with
  | none => simp [Cell.equals]
  | some g =>
    cases b with
    | none => simp [Cell.equals]
    | some g' =>
      have hsame : Cell.equals (some g) (some g') = some (g == g') := rfl
      rw [hsame, Option.some.injEq, beq_iff_eq]
      constructor
      · rintro rfl
        exact ⟨g, rfl, rfl⟩
      · rintro ⟨_, ⟨⟩, ⟨⟩⟩
        rfl

theorem Cell.isIn_eq_true {a : Cell} {bs : List Cell} :
    a.isIn bs = some true ↔ ∃ g, a = some g ∧ some g ∈ bs := by
  induction bs with
  | nil => simp [Cell.isIn]
  | cons b bs ih =>
    change Truth.either (a.equals b) (a.isIn bs) = some true ↔ _
    rw [Truth.either_eq_true, ih, Cell.equals_eq_true]
    constructor
    · rintro (⟨g, ha, rfl⟩ | ⟨g, ha, hg⟩)
      · exact ⟨g, ha, List.mem_cons_self⟩
      · exact ⟨g, ha, List.mem_cons_of_mem _ hg⟩
    · rintro ⟨g, ha, hg⟩
      rcases List.mem_cons.mp hg with rfl | hg
      · exact Or.inl ⟨g, ha, rfl⟩
      · exact Or.inr ⟨g, ha, hg⟩

end NetworkPolicy.Database

namespace NetworkPolicy.SqliteStore

open Database

/-- Parameters numbered behind those for the values before them have the values that come next. -/
theorem some_mem_values {before gs after : List String} (g : String) :
    some g ∈ (placeholders (before.length + 1) gs.length).map
      (·.value (before ++ gs ++ after)) ↔ g ∈ gs := by
  unfold placeholders
  by_cases hgs : gs = []
  · subst hgs
    simp [Operand.value]
  · have hne : gs.length ≠ 0 := fun h => hgs (List.length_eq_zero_iff.mp h)
    have hvalues : ((List.range' (before.length + 1) gs.length).map Operand.parameter).map
        (·.value (before ++ gs ++ after)) = gs.map some := by
      refine List.ext_getElem (by simp) fun i hi hi' => ?_
      have hlt : i < gs.length := by simpa using hi'
      have hnumber : before.length + 1 + 1 * i = before.length + i + 1 := by omega
      simp only [List.getElem_map, List.getElem_range', hnumber, Operand.value]
      rw [List.append_assoc, List.getElem?_append_right (Nat.le_add_right _ _),
        Nat.add_sub_cancel_left, List.getElem?_append_left hlt, List.getElem?_eq_getElem hlt]
    rw [if_neg hne, hvalues]
    simp

theorem foldl_max_range' {acc first : Nat} (h : acc ≤ first) (count : Nat) :
    (List.range' first (count + 1)).foldl max acc = first + count := by
  induction count generalizing acc first with
  | zero => exact Nat.max_eq_right h
  | succ count ih =>
    rw [List.range'_succ, List.foldl_cons, Nat.max_eq_right h, ih (Nat.le_succ first)]
    omega

/-- Numbers from `first` on raise the highest number to that of the last of them. -/
theorem foldl_max_placeholders (highest count : Nat) :
    ((placeholders (highest + 1) count).map Operand.number).foldl max highest =
      highest + count := by
  cases count with
  | zero => exact Nat.max_eq_left (Nat.zero_le highest)
  | succ count =>
    have hnumbers : (placeholders (highest + 1) (count + 1)).map Operand.number =
        List.range' (highest + 1) (count + 1) := by
      rw [placeholders, if_neg (Nat.succ_ne_zero count), List.map_map]
      exact List.map_id _
    rw [hnumbers, foldl_max_range' (Nat.le_succ highest)]
    omega

theorem parameters_endsCondition (sources destinations : Nat) :
    (endsCondition sources destinations).parameters = sources + destinations := by
  have hsources := foldl_max_placeholders 0 sources
  rw [Nat.zero_add, Nat.zero_add] at hsources
  unfold EndsCondition.parameters endsCondition
  rw [List.map_append, List.foldl_append, hsources, foldl_max_placeholders]

/-- As many values are bound as the condition takes, and it selects by both lists. -/
theorem joinedWhere_endsCondition (t : Tables) (sources destinations : List String) :
    t.joinedWhere (endsCondition sources.length destinations.length) (sources ++ destinations) =
      .ok (t.joinedFor sources destinations) := by
  have hbound : (sources ++ destinations).length =
      (endsCondition sources.length destinations.length).parameters := by
    rw [parameters_endsCondition, List.length_append]
  have hsources : ∀ g, some g ∈ (placeholders 1 sources.length).map
      (·.value (sources ++ destinations)) ↔ g ∈ sources :=
    @some_mem_values [] sources destinations
  have hdestinations : ∀ g, some g ∈ (placeholders (sources.length + 1) destinations.length).map
      (·.value (sources ++ destinations)) ↔ g ∈ destinations := by
    have h := @some_mem_values sources destinations []
    rwa [List.append_nil] at h
  have hany : ∀ (c : Cell) (gs : List String), (∃ g, c = some g ∧ g ∈ gs) ↔
      c.any gs.contains = true := fun c gs => by
    cases c <;> simp
  unfold Tables.joinedWhere Tables.joinedFor
  rw [if_pos hbound]
  refine congrArg Except.ok (List.filter_congr fun r _ => ?_)
  rw [Bool.eq_iff_iff, beq_iff_eq, Truth.either_eq_true, Cell.isIn_eq_true, Cell.isIn_eq_true,
    Bool.or_eq_true, ← hany, ← hany]
  simp only [endsCondition, hsources, hdestinations]

end NetworkPolicy.SqliteStore
