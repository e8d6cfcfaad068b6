import Stencil.Number.Format
import Stencil.Text.Quoted
import Stencil.Value.Basic

/-!
# The texts of a value

* `Value.outputText` is what an output tag shows: nothing for undefined and null, lower-case truth
  values, and the items of a sequence with commas between them, whatever their depth.
* `Value.literal` shows the value inside a collection and in messages: texts are quoted, and the
  brackets tell lists, tuples and mappings apart.
* `Value.plainText` is the text that a constant or a written value contributes.  It is the literal,
  except that a text stands for itself and the undefined value for nothing.

Objects and streams show nothing of their contents.

All of this is done for values of any size and depth.  An interpreter has calls in progress for each
of the sequences inside each other that it shows, so that a value can be too deep for it
(`Stack.before`), and it may refuse the numeral of an integer of more than 4300 digits.

`Value.typeName` is what messages call the kind of a value.
-/

set_option autoImplicit false

namespace Stencil.Value

/-- The word for the kind of a value. -/
def typeName : Value → Text
  | .undefined => "_Undefined"
  | .null => "NoneType"
  | .bool _ => "bool"
  | .int _ => "int"
  | .float _ => "float"
  | .text _ => "str"
  | .safe _ => "SafeString"
  | .bytes _ => "bytes"
  | .list _ => "list"
  | .tuple _ => "tuple"
  | .map _ => "dict"
  | .object _ => "Obj"
  | .stream _ _ => "Gen"

mutual

/-- The text that shows a value inside a collection. -/
def literal : Value → Text
  | .undefined => "UNDEFINED"
  | .null => "None"
  | .bool true => "True"
  | .bool false => "False"
  | .int i => Text.ofInt i
  | .float x => x.toText
  | .text t => Text.quoted t
  | .safe t => ("SafeString(" : Text) ++ Text.quoted t ++ [')']
  | .bytes b => Text.quotedBytes b
  | .list items => '[' :: Text.join [',', ' '] (literals items) ++ [']']
  | .tuple items =>
    '(' :: Text.join [',', ' '] (literals items) ++ (if items.length = 1 then [',', ')'] else [')'])
  | .map entries => '\x7b' :: Text.join [',', ' '] (entryLiterals entries) ++ ['\x7d']
  | .object _ => "<obj>"
  | .stream _ _ => "<gen>"

/-- The literals of a list of values. -/
def literals : List Value → List Text
  | [] => []
  | v :: vs => v.literal :: literals vs

/-- The literals of the entries of a mapping. -/
def entryLiterals : List (Value × Value) → List Text
  | [] => []
  | (k, v) :: es => (k.literal ++ [':', ' '] ++ v.literal) :: entryLiterals es

end

/-- The text that a constant or a written value contributes. -/
def plainText : Value → Text
  | .undefined => []
  | .text t | .safe t => t
  | v => v.literal

mutual

/-- The text that an output tag shows. -/
def outputText : Value → Text
  | .undefined | .null => []
  | .bool true => "true"
  | .bool false => "false"
  | .text t | .safe t => t
  | .list items | .tuple items => Text.join [','] (outputTexts items)
  | v => v.literal

/-- The output texts of a list of values. -/
def outputTexts : List Value → List Text
  | [] => []
  | v :: vs => v.outputText :: outputTexts vs

end

/-! ### The texts of collections -/

theorem literal_list (items : List Value) :
    (Value.list items).literal = '[' :: Text.join [',', ' '] (literals items) ++ [']'] := rfl

theorem literal_tuple (items : List Value) :
    (Value.tuple items).literal = '(' :: Text.join [',', ' '] (literals items) ++
      (if items.length = 1 then [',', ')'] else [')']) := rfl

theorem literal_map (entries : List (Value × Value)) :
    (Value.map entries).literal =
      '\x7b' :: Text.join [',', ' '] (entryLiterals entries) ++ ['\x7d'] := rfl

theorem outputText_list (items : List Value) :
    (Value.list items).outputText = Text.join [','] (outputTexts items) := rfl

theorem outputText_tuple (items : List Value) :
    (Value.tuple items).outputText = Text.join [','] (outputTexts items) := rfl

theorem outputTexts_eq_map (vs : List Value) : outputTexts vs = vs.map outputText := by
  induction vs with
  | nil => rfl
  | cons v vs ih => simp [outputTexts, ih]

end Stencil.Value
