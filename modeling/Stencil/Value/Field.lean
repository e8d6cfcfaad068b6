import Stencil.Table
import Stencil.Text.Digit
import Stencil.Value.Basic

/-!
# One step of a path

`Value.field` looks up one segment on a value: an entry of a mapping by its name, an item of a
sequence by its index, an attribute of an object.  Everything else has no fields, and attributes
whose names start with an underscore are private and cannot be reached.
-/

set_option autoImplicit false

namespace Stencil.Value

/-- Whether an attribute of that name is hidden from templates. -/
def isPrivate (name : Text) : Bool :=
  name.head? == some '_'

/-- The value of a segment on a value, or `undefined` if there is none. -/
def field (v : Value) (segment : Text) : Value :=
  match v with
  | .map entries => (valueAt? entries segment).getD .undefined
  | .list items | .tuple items =>
    match Text.toNat? segment with
    | some index => items[index]?.getD .undefined
    | none => .undefined
  | .object attributes =>
    if isPrivate segment then .undefined else (Table.get? attributes segment).getD .undefined
  | _ => .undefined

@[simp] theorem field_undefined (segment : Text) : field .undefined segment = .undefined := rfl

end Stencil.Value
