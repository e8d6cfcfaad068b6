import Stencil.Number.Binary64
import Stencil.Text.Basic

/-!
# Values

What a template is rendered against, what a helper is given and what it answers are all values.
The type is closed: every kind of datum that can reach a template has its constructor.

* Mappings keep their entries in insertion order.  A key stands once; `Value.insertEntry` lets a
  later value take the place of an earlier one at the earlier place.
* Lists and tuples are the two kinds of sequence; they differ in how they are written only.
* An object exposes named attributes and nothing else.
* A stream yields its items once.  Its serial number tells it apart from every other stream, and
  whoever renders keeps record of how far streams have been read.

`Value.isTruthy` is the condition of the control-flow helpers and of plain sections.
-/

set_option autoImplicit false

namespace Stencil

/-- A datum that a template can see. -/
inductive Value where
  /-- What a path that leads nowhere resolves to. -/
  | undefined
  /-- The absent value of a data format. -/
  | null
  /-- A truth value. -/
  | bool (b : Bool)
  /-- An integer. -/
  | int (i : Int)
  /-- A fractional number. -/
  | float (x : Binary64)
  /-- A text. -/
  | text (t : Text)
  /-- A text that is safe to output as it stands. -/
  | safe (t : Text)
  /-- A byte string, each byte as one of the characters U+0000 to U+00FF. -/
  | bytes (b : Text)
  /-- A list. -/
  | list (items : List Value)
  /-- A tuple. -/
  | tuple (items : List Value)
  /-- A mapping with its entries in insertion order. -/
  | map (entries : List (Value × Value))
  /-- An object with named attributes. -/
  | object (attributes : List (Text × Value))
  /-- A sequence that can be read once. -/
  | stream (serial : Nat) (items : List Value)

instance : Inhabited Value := ⟨.undefined⟩

namespace Value

/-- The items of a list or tuple. -/
def items? : Value → Option (List Value)
  | .list items => some items
  | .tuple items => some items
  | _ => none

/-- Whether the value is a list or tuple. -/
def isSequence (v : Value) : Bool :=
  v.items?.isSome

/-- Whether the value is the undefined value. -/
def isUndefined : Value → Bool
  | .undefined => true
  | _ => false

/-- What one meets in going through a value from its beginning: the characters of a text, the
numbers of a byte string, the items of a sequence or stream, the keys of a mapping. -/
def elements? : Value → Option (List Value)
  | .text t | .safe t => some (t.map fun c => .text [c])
  | .bytes b => some (b.map fun c => .int c.toNat)
  | .list items | .tuple items | .stream _ items => some items
  | .map entries => some (entries.map fun (key, _) => key)
  | _ => none

/-- The condition of control flow: undefined, null, false, an empty text or sequence and a zero
fail it, and everything else meets it.  With `includeZero` a zero meets it too. -/
def isTruthy (v : Value) (includeZero : Bool) : Bool :=
  match v with
  | .undefined | .null => false
  | .bool b => b
  | .int i => includeZero || i != 0
  | .float x => includeZero || !x.isZero
  | .text t | .safe t | .bytes t => !t.isEmpty
  | .list items | .tuple items => !items.isEmpty
  | .map _ | .object _ | .stream _ _ => true

/-! ## Entries of a mapping -/

/-- The text of a value that can be a name. -/
def asText? : Value → Option Text
  | .text t | .safe t => some t
  | _ => none

/-- The integer that a truth value or an integer counts as when it is a key. -/
def asInt? : Value → Option Int
  | .bool b => some (if b then 1 else 0)
  | .int i => some i
  | _ => none

/-- The number that a truth value or a number counts as. -/
def asNumber? : Value → Option Binary64
  | .float x => some x
  | v => v.asInt?.map Binary64.ofInt

/-- Whether two keys that are no tuples denote the same entry: texts by their characters, numbers
and truth values by their numerical value. -/
def sameAtom (a b : Value) : Bool :=
  match a, b with
  | .undefined, .undefined => true
  | .null, .null => true
  | .bytes s, .bytes t => s = t
  | .float x, .float y => x.eqNumber y
  | .float x, other => other.asInt?.any x.eqInt
  | other, .float x => other.asInt?.any x.eqInt
  | a, b =>
    match a.asText?, b.asText? with
    | some s, some t => s = t
    | none, none =>
      match a.asInt?, b.asInt? with
      | some i, some j => i = j
      | _, _ => false
    | _, _ => false

mutual

/-- Whether two keys denote the same entry; tuples do if their items do. -/
def sameKey : Value → Value → Bool
  | .tuple as, .tuple bs => sameKeys as bs
  | a, b => a.sameAtom b

/-- Whether the keys of two lists denote the same entries one by one. -/
def sameKeys : List Value → List Value → Bool
  | [], [] => true
  | a :: as, b :: bs => a.sameKey b && sameKeys as bs
  | _, _ => false

end

/-- Adds an entry, or replaces the value of the entry with the same key. -/
def insertEntry (entries : List (Value × Value)) (key value : Value) : List (Value × Value) :=
  match entries with
  | [] => [(key, value)]
  | (k, v) :: rest =>
    if k.sameKey key then (k, value) :: rest else (k, v) :: insertEntry rest key value

/-- The mapping of a list of entries, of which later ones win. -/
def ofEntries (entries : List (Value × Value)) : Value :=
  .map (entries.foldl (fun es (k, v) => insertEntry es k v) [])

/-- The value of the entry whose key is the text `name`. -/
def valueAt? (entries : List (Value × Value)) (name : Text) : Option Value :=
  (entries.find? fun (k, _) => k.asText? = some name).map (·.2)

end Value

end Stencil
