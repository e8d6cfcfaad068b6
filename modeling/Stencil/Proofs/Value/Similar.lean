import Mathlib.Data.List.Forall2
import Stencil.Proofs.Table
import Stencil.Value.Field
import Stencil.Value.Printing

/-!
# Values that look the same to a template

A template sees the kind of a value, its text, its items, entries and those attributes that are not
private.  `Value.Similar` relates two values of which it sees the same, as long as it does not tell
the values inside them apart.

A relation that goes on like that at every depth is a simulation.  Values that it relates have the
same texts and meet the same conditions, and every segment leads from them to values that it
relates again.
-/

set_option autoImplicit false

namespace Stencil.Value

/-- Two values are similar if they are the same up to private attributes and to the values inside
them, which are related. -/
inductive Similar (R : Value → Value → Prop) : Value → Value → Prop
  /-- The undefined value. -/
  | undefined : Similar R .undefined .undefined
  /-- The absent value. -/
  | null : Similar R .null .null
  /-- A truth value. -/
  | bool (b : Bool) : Similar R (.bool b) (.bool b)
  /-- An integer. -/
  | int (i : Int) : Similar R (.int i) (.int i)
  /-- A fractional number. -/
  | float (x : Binary64) : Similar R (.float x) (.float x)
  /-- A text. -/
  | text (t : Text) : Similar R (.text t) (.text t)
  /-- A safe text. -/
  | safe (t : Text) : Similar R (.safe t) (.safe t)
  /-- A byte string. -/
  | bytes (b : Text) : Similar R (.bytes b) (.bytes b)
  /-- Lists of related items. -/
  | list {vs ws : List Value} (h : List.Forall₂ R vs ws) : Similar R (.list vs) (.list ws)
  /-- Tuples of related items. -/
  | tuple {vs ws : List Value} (h : List.Forall₂ R vs ws) : Similar R (.tuple vs) (.tuple ws)
  /-- Mappings with related keys and values. -/
  | map {es fs : List (Value × Value)}
      (h : List.Forall₂ (fun e f => R e.1 f.1 ∧ R e.2 f.2) es fs) : Similar R (.map es) (.map fs)
  /-- Objects with related attributes, the private ones apart. -/
  | object {as bs : List (Text × Value)}
      (h : ∀ name, isPrivate name = false →
        Option.Rel R (Table.get? as name) (Table.get? bs name)) :
      Similar R (.object as) (.object bs)
  /-- The same stream of related items. -/
  | stream (serial : Nat) {vs ws : List Value} (h : List.Forall₂ R vs ws) :
      Similar R (.stream serial vs) (.stream serial ws)

/-- A relation is a simulation if the values that it relates are similar. -/
def IsSimulation (R : Value → Value → Prop) : Prop :=
  ∀ {v w}, R v w → Similar R v w

variable {R : Value → Value → Prop}

namespace Similar

theorem refl (hR : ∀ v, R v v) (v : Value) : Similar R v v := by
  have hitems : ∀ vs : List Value, List.Forall₂ R vs vs := fun vs =>
    List.forall₂_same.2 fun v _ => hR v
  cases v with
  | undefined => exact .undefined
  | null => exact .null
  | bool b => exact .bool b
  | int i => exact .int i
  | float x => exact .float x
  | text t => exact .text t
  | safe t => exact .safe t
  | bytes b => exact .bytes b
  | list items => exact .list (hitems items)
  | tuple items => exact .tuple (hitems items)
  | map entries => exact .map (List.forall₂_same.2 fun e _ => ⟨hR e.1, hR e.2⟩)
  | object attributes =>
    refine .object fun name _ => ?_
    cases Table.get? attributes name with
    | none => exact .none
    | some v => exact .some (hR v)
  | stream serial items => exact .stream serial (hitems items)

variable {v w : Value}

theorem isUndefined_eq (h : Similar R v w) : v.isUndefined = w.isUndefined := by
  cases h <;> rfl

theorem asText?_eq (h : Similar R v w) : v.asText? = w.asText? := by
  cases h <;> rfl

theorem isTruthy_eq (h : Similar R v w) (includeZero : Bool) :
    v.isTruthy includeZero = w.isTruthy includeZero := by
  cases h with
  | list hitems | tuple hitems => cases hitems <;> rfl
  | _ => rfl

theorem items?_rel (h : Similar R v w) : Option.Rel (List.Forall₂ R) v.items? w.items? := by
  cases h with
  | list hitems | tuple hitems => exact .some hitems
  | _ => exact .none

end Similar

/-! ## Texts -/

mutual

/-- Values that a simulation relates have the same literal. -/
theorem literal_eq (hR : IsSimulation R) : ∀ {v w : Value}, R v w → v.literal = w.literal
  | .undefined, w, h | .null, w, h | .bool _, w, h | .int _, w, h | .float _, w, h
  | .text _, w, h | .safe _, w, h | .bytes _, w, h | .object _, w, h | .stream _ _, w, h => by
    cases hR h
    all_goals rfl
  | .list vs, w, h => by
    cases hR h with
    | list hitems =>
      rw [literal_list, literal_list, literals_eq hR hitems]
  | .tuple vs, w, h => by
    cases hR h with
    | tuple hitems =>
      rw [literal_tuple, literal_tuple, literals_eq hR hitems, hitems.length_eq]
  | .map es, w, h => by
    cases hR h with
    | map hentries =>
      rw [literal_map, literal_map, entryLiterals_eq hR hentries]

theorem literals_eq (hR : IsSimulation R) :
    ∀ {vs ws : List Value}, List.Forall₂ R vs ws → literals vs = literals ws
  | [], _, .nil => rfl
  | v :: vs, _, .cons hv hvs => by
    rw [literals, literals, literal_eq hR hv, literals_eq hR hvs]

theorem entryLiterals_eq (hR : IsSimulation R) : ∀ {es fs : List (Value × Value)},
    List.Forall₂ (fun e f => R e.1 f.1 ∧ R e.2 f.2) es fs → entryLiterals es = entryLiterals fs
  | [], _, .nil => rfl
  | (k, v) :: es, _ :: _, .cons he hes => by
    rw [entryLiterals, entryLiterals, literal_eq hR he.1, literal_eq hR he.2,
      entryLiterals_eq hR hes]

end

mutual

/-- Values that a simulation relates have the same output text. -/
theorem outputText_eq (hR : IsSimulation R) :
    ∀ {v w : Value}, R v w → v.outputText = w.outputText
  | .undefined, w, h | .null, w, h | .bool _, w, h | .int _, w, h | .float _, w, h
  | .text _, w, h | .safe _, w, h | .bytes _, w, h => by
    cases hR h
    rfl
  | .object _, w, h | .stream _ _, w, h => by
    have hliteral := literal_eq hR h
    cases hR h
    exact hliteral
  | .list vs, w, h => by
    cases hR h with
    | list hitems => rw [outputText_list, outputText_list, outputTexts_eq hR hitems]
  | .tuple vs, w, h => by
    cases hR h with
    | tuple hitems => rw [outputText_tuple, outputText_tuple, outputTexts_eq hR hitems]
  | .map es, w, h => by
    have hliteral := literal_eq hR h
    cases hR h
    exact hliteral

theorem outputTexts_eq (hR : IsSimulation R) :
    ∀ {vs ws : List Value}, List.Forall₂ R vs ws → outputTexts vs = outputTexts ws
  | [], _, .nil => rfl
  | v :: vs, _, .cons hv hvs => by
    rw [outputTexts, outputTexts, outputText_eq hR hv, outputTexts_eq hR hvs]

end

/-! ## Segments -/

theorem getD_rel {x y : Option Value} (h : Option.Rel R x y)
    (hundefined : R .undefined .undefined) : R (x.getD .undefined) (y.getD .undefined) := by
  cases h with
  | none => exact hundefined
  | some h => exact h

theorem valueAt?_rel (hR : IsSimulation R) {es fs : List (Value × Value)}
    (h : List.Forall₂ (fun e f => R e.1 f.1 ∧ R e.2 f.2) es fs) (name : Text) :
    Option.Rel R (valueAt? es name) (valueAt? fs name) := by
  induction h with
  | nil => exact .none
  | @cons e f es fs he hrest ih =>
    have hkey : e.1.asText? = f.1.asText? := (hR he.1).asText?_eq
    by_cases hname : e.1.asText? = some name
    · have hname' : f.1.asText? = some name := hkey ▸ hname
      rw [valueAt?, valueAt?, List.find?_cons_of_pos (by simpa using hname),
        List.find?_cons_of_pos (by simpa using hname')]
      exact .some he.2
    · have hname' : f.1.asText? ≠ some name := hkey ▸ hname
      rw [valueAt?, valueAt?, List.find?_cons_of_neg (by simpa using hname),
        List.find?_cons_of_neg (by simpa using hname')]
      exact ih

theorem getElem?_rel {vs ws : List Value} (h : List.Forall₂ R vs ws) (index : Nat) :
    Option.Rel R vs[index]? ws[index]? := by
  induction h generalizing index with
  | nil => exact .none
  | cons hv hrest ih =>
    cases index with
    | zero => exact .some hv
    | succ index => exact ih index

/-- **A segment leads from related values to related values.** -/
theorem field_rel (hR : IsSimulation R) (hundefined : R .undefined .undefined) {v w : Value}
    (h : R v w) (segment : Text) : R (v.field segment) (w.field segment) := by
  cases hR h with
  | list hitems | tuple hitems =>
    simp only [field]
    split
    · exact getD_rel (getElem?_rel hitems _) hundefined
    · exact hundefined
  | map hentries => exact getD_rel (valueAt?_rel hR hentries segment) hundefined
  | object hattributes =>
    simp only [field]
    split
    · exact hundefined
    · rename_i hprivate
      exact getD_rel (hattributes segment (by simpa using hprivate)) hundefined
  | _ => exact hundefined

end Stencil.Value
