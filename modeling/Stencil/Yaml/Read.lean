import Stencil.Yaml.Token

/-!
# Reading YAML

`Yaml.read` answers the value that a text writes; a text without data stands for null.  It serves
the program as a reader (`Yaml.reader`), and stands for one that is not described here: nothing that
is proved about the command line depends on what it makes of a text.

The reader goes through the tokens once.  It always stands at one `Place`, and keeps the places
around it, where the collections that are still open go on, on a stack.  A value that is complete
fills the place where it stands (`Place.fill`).

In many places a value may be missing, and some collections have no mark at their end: an entry that
stands in a list in flow style, and a list whose dashes stand no further to the right than the keys
of the mapping around it.  Only the next token tells.  So before a token is taken, `Reader.settle`
fills in the nulls and ends the collections of which the token shows that there is nothing more.
-/

set_option autoImplicit false

namespace Stencil.Yaml

/-- How the extent of a collection is shown. -/
inductive Style where
  /-- It stands in brackets. -/
  | flow
  /-- It is indented. -/
  | block
  /-- It goes on as long as there are tokens for it. -/
  | bare
deriving DecidableEq

/-- The entries of a mapping, the latest first. -/
abbrev Entries := List (Value × Value)

/-- A place between two tokens.  Items and entries are given with the latest first. -/
inductive Place where
  /-- Before everything. -/
  | start
  /-- Behind the mark of a document. -/
  | content
  /-- Behind the data. -/
  | done (v : Value)
  /-- Behind the data and the mark for their end. -/
  | closed (v : Value)
  /-- Where an item of a list stands. -/
  | item (style : Style) (items : List Value)
  /-- Behind an item of a list, or before the first dash of it. -/
  | afterItem (style : Style) (items : List Value)
  /-- Where an entry of a mapping in flow style stands. -/
  | entry (entries : Entries)
  /-- Where the key of an entry stands, behind a mark for it. -/
  | key (style : Style) (entries : Entries)
  /-- Behind the key of an entry. -/
  | afterKey (style : Style) (entries : Entries) (k : Value)
  /-- Where the value of an entry stands. -/
  | value (style : Style) (entries : Entries) (k : Value)
  /-- Behind an entry of a mapping, or before the first entry of one that is indented. -/
  | afterEntry (style : Style) (entries : Entries)

/-- Whether a value is a scalar. -/
def isScalar : Value → Bool
  | .list _ | .map _ => false
  | _ => true

/-- The key that a value is.  A list of scalars counts as a tuple. -/
def keyOf : Value → Except Fault Value
  | .list items => if items.all isScalar then .ok (.tuple items) else .error .badKey
  | .map _ => .error .badKey
  | v => .ok v

/-- Adds an entry with a new key. -/
def addEntry (entries : Entries) (k v : Value) : Except Fault Entries := do
  let k ← keyOf k
  if entries.any fun entry => entry.1.sameKey k then .error .duplicateKey
  else return (k, v) :: entries

namespace Place

/-- The place behind a value that stands at a place. -/
def fill (p : Place) (v : Value) : Except Fault Place :=
  match p with
  | .start | .content => .ok (.done v)
  | .item style items => .ok (.afterItem style (v :: items))
  | .entry entries => (addEntry entries v .null).map (.afterEntry .flow)
  | .key style entries => .ok (.afterKey style entries v)
  | .value style entries k => (addEntry entries k v).map (.afterEntry style)
  | .done _ | .closed _ | .afterItem _ _ | .afterKey _ _ _ | .afterEntry _ _ =>
    .error .unexpectedToken

/-- Whether a token shows that an entry of a mapping is over. -/
def endsEntry : Style → Token → Bool
  | .flow, .comma | .flow, .mapEnd => true
  | .block, .key | .block, .value | .block, .blockEnd => true
  | .bare, .comma | .bare, .listEnd => true
  | _, _ => false

/-- Whether a token shows that nothing stands at a place where a value might. -/
def isMissing : Place → Token → Bool
  | .content, .documentStart | .content, .documentEnd => true
  | .item .block _, .dash | .item .block _, .blockEnd => true
  | .item .bare _, .dash | .item .bare _, .key | .item .bare _, .value
  | .item .bare _, .blockEnd => true
  | .key _ _, .value => true
  | .key style _, token | .value style _ _, token => endsEntry style token
  | _, _ => false

end Place

/-- The state of the reader. -/
structure Reader where
  /-- The places of the collections that are open, the innermost first. -/
  stack : List Place := []
  /-- Where the reader stands. -/
  place : Place := .start

namespace Reader

/-- Goes on behind a value. -/
def fill (r : Reader) (v : Value) : Except Fault Reader :=
  (r.place.fill v).map fun place => { r with place }

/-- Goes into a collection that stands here. -/
def enter (r : Reader) (place : Place) : Reader :=
  ⟨r.place :: r.stack, place⟩

/-- Goes on behind a collection that is complete. -/
def leave (r : Reader) (v : Value) : Except Fault Reader :=
  match r.stack with
  | [] => .error .unexpectedToken
  | place :: stack => fill ⟨stack, place⟩ v

/-- The list of items that are given with the latest first. -/
def listOf (items : List Value) : Value :=
  .list items.reverse

/-- The mapping of entries that are given with the latest first. -/
def mapOf (entries : Entries) : Value :=
  .map entries.reverse

/-- Fills in null for a value that is missing. -/
def settleValue (r : Reader) (token : Token) : Except Fault Reader :=
  if r.place.isMissing token then r.fill .null else .ok r

/-- Fills in null for the value of an entry that consists of a key only. -/
def settleEntry (r : Reader) (token : Token) : Except Fault Reader :=
  match r.place, token with
  | .afterKey _ _ _, .value => .ok r
  | .afterKey style entries k, _ =>
    (addEntry entries k .null).map fun entries => { r with place := .afterEntry style entries }
  | _, _ => .ok r

/-- Leaves a collection that has no mark at its end. -/
def settleBare (r : Reader) (token : Token) : Except Fault Reader :=
  match r.place, token with
  | .afterItem .bare _, .dash => .ok r
  | .afterItem .bare items, _ => r.leave (listOf items)
  | .afterEntry .bare entries, _ => r.leave (mapOf entries)
  | _, _ => .ok r

/-- Does what a token calls for before it is taken.  A list that is left may be a key that is all of
its entry. -/
def settle (r : Reader) (token : Token) : Except Fault Reader := do
  let r ← r.settleValue token
  let r ← r.settleEntry token
  let r ← r.settleBare token
  r.settleEntry token

/-- Takes a token that begins a value. -/
def begin (r : Reader) (token : Token) : Except Fault Reader :=
  match r.place, token with
  | _, .scalar v => r.fill v
  | _, .listStart => .ok (r.enter (.item .flow []))
  | _, .mapStart => .ok (r.enter (.entry []))
  | _, .blockList => .ok (r.enter (.afterItem .block []))
  | _, .blockMap => .ok (r.enter (.afterEntry .block []))
  | .key .block _, .dash | .value .block _ _, .dash => .ok (r.enter (.item .bare []))
  | _, _ => .error .unexpectedToken

/-- Takes a token. -/
def take (r : Reader) (token : Token) : Except Fault Reader :=
  match r.place, token with
  | .start, .documentStart => .ok { r with place := .content }
  | .done v, .documentEnd => .ok { r with place := .closed v }
  | .item .flow items, .listEnd | .afterItem .flow items, .listEnd => r.leave (listOf items)
  | .item .flow _, .key => .ok (r.enter (.key .bare []))
  | .afterItem .flow items, .comma => .ok { r with place := .item .flow items }
  | .afterItem .block items, .dash => .ok { r with place := .item .block items }
  | .afterItem .bare items, .dash => .ok { r with place := .item .bare items }
  | .afterItem .block items, .blockEnd => r.leave (listOf items)
  | .entry entries, .key => .ok { r with place := .key .flow entries }
  | .entry entries, .value => .ok { r with place := .value .flow entries .null }
  | .entry entries, .mapEnd | .afterEntry .flow entries, .mapEnd => r.leave (mapOf entries)
  | .afterEntry .flow entries, .comma => .ok { r with place := .entry entries }
  | .afterEntry .block entries, .key => .ok { r with place := .key .block entries }
  | .afterEntry .block entries, .value => .ok { r with place := .value .block entries .null }
  | .afterEntry .block entries, .blockEnd => r.leave (mapOf entries)
  | .afterKey style entries k, .value => .ok { r with place := .value style entries k }
  | _, token => r.begin token

/-- Goes on behind a token. -/
def step (r : Reader) (token : Token) : Except Fault Reader := do
  (← r.settle token).take token

/-- The value that has been read when there are no more tokens. -/
def finish (r : Reader) : Except Fault Value :=
  match r.stack, r.place with
  | [], .start | [], .content => .ok .null
  | [], .done v | [], .closed v => .ok v
  | _, _ => .error .unexpectedEnd

end Reader

/-- Reads a text. -/
def read (t : Text) : Except Fault Value := do
  let tokens ← tokens t
  let r ← tokens.foldlM Reader.step {}
  r.finish

/-- Reads a text, and says in words what is wrong with it. -/
def reader (t : Text) : Except Text Value :=
  (read t).mapError Fault.message

end Stencil.Yaml
