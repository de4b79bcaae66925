/-! Maps whose entries are held by increasing key. -/

namespace NetworkPolicy

/-- A map: its entries by increasing key, one for each key. -/
abbrev OrderedMap (κ α : Type) := List (κ × α)

namespace OrderedMap

variable {κ α : Type} [DecidableEq κ]

/-- What the map has for a key. -/
def get? (m : OrderedMap κ α) (k : κ) : Option α := (m.find? (·.1 == k)).map (·.2)

/-- Puts an entry in its place, which is that of the entry with the same key if there is one. -/
def insert [LT κ] [DecidableLT κ] (k : κ) (a : α) : OrderedMap κ α → OrderedMap κ α
  | [] => [(k, a)]
  | (l, b) :: rest =>
    if k < l then (k, a) :: (l, b) :: rest
    else if k = l then (l, a) :: rest
    else (l, b) :: insert k a rest

/-- Takes the entry of a key out. -/
def erase (m : OrderedMap κ α) (k : κ) : OrderedMap κ α := m.filter (·.1 != k)

/-- The map of entries in any order; of those with one key the last counts. -/
def ofEntries [LT κ] [DecidableLT κ] (entries : List (κ × α)) : OrderedMap κ α :=
  entries.foldl (fun m (k, a) => m.insert k a) []

end OrderedMap
end NetworkPolicy
