import Std.Data.TreeMap

/-!
# Names and internal ids

A map from the names of tables to the ids of the sheets behind them. Inserting a name again
replaces its id. Names are listed in the order of their characters.

## Main definitions

* `IdMap` — the map, with `insert`, `get?`, `retain`, `names` and `size`

## Main results

* `get?_insert`, `get?_retain` — what each operation does to a look-up
-/

namespace WorkbookTables

/-- A map from names of tables to internal ids of sheets. -/
structure IdMap where
  /-- The ids by name. -/
  ids : Std.TreeMap String String

namespace IdMap

/-- The map without names. -/
def empty : IdMap := ⟨∅⟩

/-- The map in which `name` has the given id. -/
def insert (m : IdMap) (name id : String) : IdMap := ⟨m.ids.insert name id⟩

/-- The id of a name. -/
def get? (m : IdMap) (name : String) : Option String := m.ids[name]?

/-- The map with those names only that `keep` accepts. -/
def retain (m : IdMap) (keep : String → Bool) : IdMap := ⟨m.ids.filter fun name _ => keep name⟩

/-- The names in ascending order. -/
def names (m : IdMap) : List String := m.ids.keys

/-- The names with their ids, in ascending order of the names. -/
def toList (m : IdMap) : List (String × String) := m.ids.toList

/-- How many names there are. -/
def size (m : IdMap) : Nat := m.ids.size

theorem get?_insert (m : IdMap) (name id other : String) :
    (m.insert name id).get? other = if name = other then some id else m.get? other := by
  simp [insert, get?, Std.TreeMap.getElem?_insert]

theorem get?_retain (m : IdMap) (keep : String → Bool) (name : String) :
    (m.retain keep).get? name = if keep name then m.get? name else none := by
  simp only [retain, get?]
  rw [Std.TreeMap.getElem?_filter']
  cases m.ids[name]? <;> simp [Option.filter]

end IdMap

end WorkbookTables
