import Stencil.Text.Basic

/-!
# Tables of named things

Registries, loaders, named parameters and variables of a scope are all small tables from names to
things.  A table keeps its entries in the order in which their names first came up; inserting a
name again replaces the thing and keeps the place.

`Table.get?_insert` describes insertion through look-up, and `Table.names_insert` through the
order of the names.
-/

set_option autoImplicit false

namespace Stencil

/-- Things by name, in the order in which the names first came up. -/
abbrev Table (α : Type) := List (Text × α)

namespace Table

variable {α : Type}

/-- The thing of that name. -/
def get? (table : Table α) (name : Text) : Option α :=
  table.lookup name

/-- The names in their order. -/
def names (table : Table α) : List Text :=
  table.map (·.1)

/-- Whether something has that name. -/
def contains (table : Table α) (name : Text) : Bool :=
  (table.get? name).isSome

/-- Gives a thing a name, in place of the thing that had it. -/
def insert (table : Table α) (name : Text) (thing : α) : Table α :=
  match table with
  | [] => [(name, thing)]
  | (n, x) :: rest =>
    if n = name then (n, thing) :: rest else (n, x) :: insert rest name thing

/-- The table of a list in which later things win. -/
def ofList (entries : List (Text × α)) : Table α :=
  entries.foldl (fun table (name, thing) => table.insert name thing) []

@[simp] theorem get?_nil (name : Text) : get? ([] : Table α) name = none := rfl

theorem get?_cons (n name : Text) (x : α) (rest : Table α) :
    get? ((n, x) :: rest) name = if name = n then some x else get? rest name := by
  by_cases h : name = n
  · simp [get?, h]
  · have : (name == n) = false := by simpa using h
    simp [get?, List.lookup_cons, h, this]

/-- **Look-up after insertion**: the new thing under its name, and everything else as before. -/
theorem get?_insert (table : Table α) (name other : Text) (thing : α) :
    (table.insert name thing).get? other =
      if other = name then some thing else table.get? other := by
  induction table with
  | nil => simp [insert, get?_cons]
  | cons entry rest ih =>
    obtain ⟨n, x⟩ := entry
    by_cases hn : n = name
    · subst hn
      by_cases ho : other = n <;> simp [insert, get?_cons, ho]
    · by_cases ho : other = n
      · have : other ≠ name := fun h => hn (ho ▸ h)
        simp [insert, get?_cons, hn, ho]
      · simp [insert, get?_cons, hn, ho, ih]

/-- Inserting a name that is present keeps the order of the names, and a new name comes last. -/
theorem names_insert (table : Table α) (name : Text) (thing : α) :
    (table.insert name thing).names =
      if name ∈ table.names then table.names else table.names ++ [name] := by
  induction table with
  | nil => simp [insert, names]
  | cons entry rest ih =>
    obtain ⟨n, x⟩ := entry
    by_cases hn : n = name
    · simp [insert, names, hn]
    · have : name ≠ n := fun h => hn h.symm
      simp only [names] at ih
      by_cases hm : ∃ x, (name, x) ∈ rest <;> simp_all [insert, names]

end Table

end Stencil
