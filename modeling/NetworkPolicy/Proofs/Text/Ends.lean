import Mathlib.Data.List.DropRight
import NetworkPolicy.Text.Blank

/-! Texts whose ends count for nothing: what is left of such a text, and which texts leave it. -/
namespace NetworkPolicy.Text

variable {p : Char → Bool} {cs t lead trail : List Char}

/-- Neither the first nor the last character has the property. -/
structure Bounded (p : Char → Bool) (t : List Char) : Prop where
  head : ∀ c, t.head? = some c → p c = false
  last : ∀ c, t.getLast? = some c → p c = false

/-- The text stands between characters that all have the property. -/
def Surrounds (p : Char → Bool) (t cs : List Char) : Prop :=
  ∃ lead trail, cs = lead ++ t ++ trail ∧ (∀ c ∈ lead, p c = true) ∧ ∀ c ∈ trail, p c = true

theorem head_dropWhile {c : Char} (h : (cs.dropWhile p).head? = some c) : p c = false := by
  have hnot := List.head?_dropWhile_not p cs
  rw [h] at hnot
  simpa using hnot

theorem last_rdropWhile {c : Char} (h : (cs.rdropWhile p).getLast? = some c) : p c = false := by
  have hne : cs.rdropWhile p ≠ [] := by
    intro hnil
    rw [hnil] at h
    cases h
  have hlast := List.rdropWhile_last_not p cs hne
  rw [List.getLast?_eq_some_getLast hne, Option.some.injEq] at h
  rw [h] at hlast
  simpa using hlast

theorem dropWhile_of_head (h : ∀ c, cs.head? = some c → p c = false) : cs.dropWhile p = cs := by
  cases cs with
  | nil => rfl
  | cons c cs =>
    have hc : ¬ p c = true := by simpa using h c rfl
    exact List.dropWhile_cons_of_neg hc

theorem rdropWhile_of_last (h : ∀ c, cs.getLast? = some c → p c = false) :
    cs.rdropWhile p = cs := by
  apply List.rdropWhile_eq_self_iff.mpr
  intro hne
  simpa using h _ (List.getLast?_eq_some_getLast hne)

theorem rdropWhile_append (h : ∀ c ∈ trail, p c = true) :
    (cs ++ trail).rdropWhile p = cs.rdropWhile p := by
  have htrail : ∀ c ∈ trail.reverse, p c = true := by simpa using h
  rw [List.rdropWhile, List.reverse_append, List.dropWhile_append_of_pos htrail, List.rdropWhile]

/-- What is left of a text without the ends that have a property is any text that it surrounds and
that is bounded. -/
theorem trimmed_eq_iff (ht : t ≠ []) :
    (cs.dropWhile p).rdropWhile p = t ↔ Bounded p t ∧ Surrounds p t cs := by
  constructor
  · rintro rfl
    have hsplit : (cs.dropWhile p).rdropWhile p ++ (cs.dropWhile p).rtakeWhile p = cs.dropWhile p :=
      List.rdropWhile_append_rtakeWhile
    have hhead : (cs.dropWhile p).head? = ((cs.dropWhile p).rdropWhile p).head? := by
      conv_lhs => rw [← hsplit, List.head?_append_of_ne_nil _ ht]
    refine ⟨⟨fun c hc => head_dropWhile (hhead.trans hc), fun c hc => last_rdropWhile hc⟩,
      cs.takeWhile p, (cs.dropWhile p).rtakeWhile p, ?_, fun c hc => List.mem_takeWhile_imp hc,
      fun c hc => List.mem_rtakeWhile_imp hc⟩
    rw [List.append_assoc, hsplit, List.takeWhile_append_dropWhile]
  · rintro ⟨hbounded, lead, trail, rfl, hlead, htrail⟩
    have hhead : ∀ c, (t ++ trail).head? = some c → p c = false := by
      intro c hc
      rw [List.head?_append_of_ne_nil _ ht] at hc
      exact hbounded.head c hc
    rw [List.append_assoc, List.dropWhile_append_of_pos hlead, dropWhile_of_head hhead,
      rdropWhile_append htrail, rdropWhile_of_last hbounded.last]

theorem trim_eq_iff (ht : t ≠ []) : trim cs = t ↔ Bounded isBlank t ∧ Surrounds isBlank t cs :=
  trimmed_eq_iff ht

end NetworkPolicy.Text
