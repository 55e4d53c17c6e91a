/-!
# Tables

A table is a list of entries by name, in the order in which the names came up. An entry that is put
under a name that is there already takes its place.
-/

namespace Gazette

abbrev Table (α : Type) := List (String × α)

namespace Table

variable {α : Type}

/-- Puts an entry at its place, or at the end if its name is new. -/
def put (name : String) (value : α) : Table α → Table α
  | [] => [(name, value)]
  | (other, old) :: rest =>
    if other = name then (name, value) :: rest else (other, old) :: put name value rest

def ofEntries (entries : List (String × α)) : Table α :=
  entries.foldl (fun table entry => put entry.1 entry.2 table) []

theorem lookup_put (name : String) (value : α) (table : Table α) :
    (put name value table).lookup name = some value := by
  induction table with
  | nil => simp [put]
  | cons entry rest ih =>
    obtain ⟨other, old⟩ := entry
    by_cases h : other = name
    · simp [put, h]
    · have hne : (name == other) = false := by simp [Ne.symm h]
      simp [put, h, List.lookup_cons, hne, ih]

theorem lookup_put_of_ne {name other : String} (h : other ≠ name) (value : α) (table : Table α) :
    (put name value table).lookup other = table.lookup other := by
  induction table with
  | nil =>
    have hne : (other == name) = false := by simp [h]
    simp [put, List.lookup_cons, hne]
  | cons entry rest ih =>
    obtain ⟨key, old⟩ := entry
    by_cases hk : key = name
    · have hne : (other == name) = false := by simp [h]
      simp [put, hk, List.lookup_cons, hne]
    · simp [put, hk, List.lookup_cons, ih]

end Table

end Gazette
