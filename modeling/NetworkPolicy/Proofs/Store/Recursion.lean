import Mathlib.Data.List.Basic
import NetworkPolicy.Store.Recursion

/-! What a recursive query finds: its seed, and behind each row the one selected from it. -/
namespace NetworkPolicy.Database.RecursiveQuery

variable {α : Type} {q : RecursiveQuery α} {a b : α} {table : Array α} {rows : List α}

/-- Each of the rows is selected from the one before it, and nothing is selected from the last. -/
inductive Selects (q : RecursiveQuery α) : α → List α → Prop where
  | last {a : α} : q.step a = none → Selects q a [a]
  | next {a b : α} {rows : List α} : q.step a = some b → Selects q b rows → Selects q a (a :: rows)

theorem fill_last (h : q.step a = none) : q.fill table a = table.push a := by
  rw [fill]
  split
  · rfl
  · next b hb => exact absurd (h.symm.trans hb) (Option.some_ne_none b).symm

theorem fill_next (h : q.step a = some b) : q.fill table a = q.fill (table.push a) b := by
  rw [fill]
  split
  · next hnone => exact absurd (h.symm.trans hnone) (Option.some_ne_none b)
  · next c hc =>
    obtain rfl : b = c := Option.some.inj (h.symm.trans hc)
    rfl

/-- Filling a table puts the rows behind those that are there. -/
theorem Selects.fill_eq (h : q.Selects a rows) (table : Array α) :
    (q.fill table a).toList = table.toList ++ rows := by
  induction h generalizing table with
  | last h => rw [fill_last h, Array.toList_push]
  | next h _ ih => rw [fill_next h, ih, Array.toList_push, List.append_assoc, List.singleton_append]

theorem Selects.rows_eq (h : q.Selects q.seed rows) : q.rows = rows := by
  rw [RecursiveQuery.rows, h.fill_eq, List.nil_append]

end NetworkPolicy.Database.RecursiveQuery
