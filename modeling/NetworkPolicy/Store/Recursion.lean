/-! Recursive queries: `WITH RECURSIVE t AS (SELECT seed UNION ALL SELECT step FROM t WHERE ..)`. -/

namespace NetworkPolicy.Database

/-- A query that begins with one row and selects at most one more from each. What is selected has a
lower rank than the row it is selected from, so that the query ends. -/
structure RecursiveQuery (α : Type) where
  seed : α
  /-- The row that is selected from a row of the table. -/
  step : α → Option α
  rank : α → Nat
  rank_lt : ∀ {a b}, step a = some b → rank b < rank a

namespace RecursiveQuery

variable {α : Type}

/-- Puts a row into the table, then what is selected from it, until nothing is. -/
def fill (q : RecursiveQuery α) (table : Array α) (a : α) : Array α :=
  match _hstep : q.step a with
  | none => table.push a
  | some b => q.fill (table.push a) b
termination_by q.rank a
decreasing_by exact q.rank_lt ‹_›

/-- The rows of the query in the order in which they are found. -/
def rows (q : RecursiveQuery α) : List α := (q.fill #[] q.seed).toList

end RecursiveQuery
end NetworkPolicy.Database
