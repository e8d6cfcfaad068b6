import Mathlib.Data.List.Forall2
import Stencil.Table

/-!
# Look-up in tables, and tables that are related

What a table has under a name is one of its entries.

Two tables that have the same names in the same order may hold things that are related in some way.
Looking up a name then leads to related things, and inserting related things keeps the tables
related.
-/

set_option autoImplicit false

namespace Stencil

namespace Table

variable {α β : Type} {R : α → β → Prop}

theorem mem_of_get? {table : Table α} {name : Text} {thing : α}
    (h : table.get? name = some thing) : (name, thing) ∈ table := by
  induction table with
  | nil => exact absurd h (by simp)
  | cons entry rest ih =>
    obtain ⟨n, x⟩ := entry
    rw [get?_cons] at h
    by_cases hname : name = n
    · rw [if_pos hname] at h
      rw [hname, Option.some.inj h]
      exact List.mem_cons_self
    · rw [if_neg hname] at h
      exact List.mem_cons_of_mem _ (ih h)

/-- Two tables are related if they have the same names in the same order, and related things under
them. -/
def Related (R : α → β → Prop) (a : Table α) (b : Table β) : Prop :=
  List.Forall₂ (fun entry entry' => entry.1 = entry'.1 ∧ R entry.2 entry'.2) a b

theorem Related.isEmpty_eq {a : Table α} {b : Table β} (h : Related R a b) :
    a.isEmpty = b.isEmpty := by
  cases h with
  | nil => rfl
  | cons hentry hrest => rfl

/-- A name leads to related things, or to none in both tables. -/
theorem Related.get? {a : Table α} {b : Table β} (h : Related R a b) (name : Text) :
    Option.Rel R (a.get? name) (b.get? name) := by
  unfold Related at h
  induction h with
  | nil => exact .none
  | @cons entry entry' a b hentry hrest ih =>
    obtain ⟨n, x⟩ := entry
    obtain ⟨n', y⟩ := entry'
    obtain ⟨rfl, hxy⟩ := hentry
    rw [get?_cons, get?_cons]
    split
    · exact .some hxy
    · exact ih

theorem Related.insert {a : Table α} {b : Table β} (h : Related R a b) (name : Text) {x : α}
    {y : β} (hxy : R x y) : Related R (a.insert name x) (b.insert name y) := by
  unfold Related at h
  induction h with
  | nil => exact .cons ⟨rfl, hxy⟩ .nil
  | @cons entry entry' a b hentry hrest ih =>
    obtain ⟨n, u⟩ := entry
    obtain ⟨n', v⟩ := entry'
    obtain ⟨rfl, huv⟩ := hentry
    rw [Table.insert, Table.insert]
    split
    · exact .cons ⟨rfl, hxy⟩ hrest
    · exact .cons ⟨rfl, huv⟩ ih

/-- The tables of related lists are related. -/
theorem Related.ofList {a : List (Text × α)} {b : List (Text × β)} (h : Related R a b) :
    Related R (Table.ofList a) (Table.ofList b) := by
  suffices hfold : ∀ (s : Table α) (t : Table β), Related R s t →
      Related R (a.foldl (fun table entry => table.insert entry.1 entry.2) s)
        (b.foldl (fun table entry => table.insert entry.1 entry.2) t) from hfold [] [] .nil
  unfold Related at h
  induction h with
  | nil => exact fun _ _ hst => hst
  | @cons entry entry' a b hentry hrest ih =>
    obtain ⟨n, x⟩ := entry
    obtain ⟨n', y⟩ := entry'
    obtain ⟨rfl, hxy⟩ := hentry
    intro s t hst
    exact ih _ _ (hst.insert n hxy)

theorem related_eq_iff {a b : Table α} : Related Eq a b ↔ a = b := by
  unfold Related
  simp only [← Prod.ext_iff]
  exact List.forall₂_eq_eq_eq ▸ Iff.rfl

end Table

end Stencil
