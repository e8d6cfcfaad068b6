import Stencil.Cache
import Stencil.Helper.Registry

/-!
# The state of an engine

An engine remembers the partials that have been registered or loaded, the templates that have been
compiled and the names that are being looked for (`Store`).  While it works it also keeps record of
how far streams have been read and of what has happened (`Session`).

An operation that may change a session and may fail is a `SessionM`.  It hands on the session also
when it fails, because what has happened before the failure has happened.
-/

set_option autoImplicit false

namespace Stencil

/-- Why an engine cannot do what it is asked for. -/
inductive Failure where
  /-- A template cannot be compiled or rendered. -/
  | template (e : TemplateError)
  /-- The engine is used in a way that makes no sense. -/
  | usage (e : UsageError)
  /-- Outside every section and partial, a helper found no room left to go on, or the engine itself
  found none on its stack. -/
  | exhausted (reason : Text)
  /-- A loader has raised something that no helper has been told of. -/
  | foreign (e : ForeignError)
deriving DecidableEq, Repr

/-- The words for a failure. -/
def Failure.message : Failure → Text
  | .template e => e.message
  | .usage e => e.message
  | .exhausted reason => reason
  | .foreign e => e.reason

/-- A template that an engine has compiled.  The number tells it apart from every other one, also
from one that was compiled from the same source. -/
structure Handle where
  /-- The number. -/
  serial : Nat
  /-- The template. -/
  template : Template

/-- What an engine remembers from one request to the next. -/
structure Store where
  /-- The partials that have been registered or loaded. -/
  partials : Table Handle := []
  /-- The templates that have been compiled. -/
  cache : Cache CacheKey Handle := .empty
  /-- The number of the next template that is compiled. -/
  nextSerial : Nat := 0
  /-- The names that are locked, because the partials of these names are being loaded. -/
  locked : List Text := []

namespace Store

/-- Locks a name. -/
def lock (s : Store) (name : Text) : Store :=
  { s with locked := s.locked.insert name }

/-- Gives the lock of a name back. -/
def unlock (s : Store) (name : Text) : Store :=
  { s with locked := s.locked.erase name }

end Store

/-- The state of an engine at work. -/
structure Session where
  /-- The templates that are remembered. -/
  store : Store := {}
  /-- The serial number of the next stream. -/
  nextStream : Nat := 0
  /-- The number of items that have been read, for every stream of which some have. -/
  itemsRead : List (Nat × Nat) := []
  /-- What has happened, the latest event first. -/
  log : List Event := []

/-- An operation on a session. -/
abbrev SessionM := EStateM Failure Session

namespace SessionM

variable {α : Type}

/-- Keeps record of events, in their order. -/
def record (events : List Event) : SessionM Unit :=
  modify fun s => { s with log := events.reverse ++ s.log }

/-- Changes what is remembered. -/
def modifyStore (change : Store → Store) : SessionM Unit :=
  modify fun s => { s with store := change s.store }

/-- Does something while a name is locked.  The lock is given back in any case. -/
def locking (name : Text) (act : SessionM α) : SessionM α := do
  modifyStore (·.lock name)
  try act finally modifyStore (·.unlock name)

/-- The partial that is registered under a name, or what else is answered for it. -/
def registeredOr (name : Text) (otherwise : SessionM Handle) : SessionM Handle := do
  match Table.get? (← get).store.partials name with
  | some h => return h
  | none => otherwise

/-- Answers the value of a computation about templates, or fails with its error. -/
def ofExcept : Except TemplateError α → SessionM α
  | .ok a => pure a
  | .error e => throw (.template e)

/-- Makes a stream that is told apart from every other one by its number. -/
def newStream (items : List Value) : SessionM Value := do
  let s ← get
  set { s with nextStream := s.nextStream + 1 }
  return .stream s.nextStream items

/-- Reads the next items of a stream, at most `count` of them.  What has been read is gone. -/
def read (serial : Nat) (items : List Value) (count : Nat) : SessionM (List Value) := do
  let s ← get
  let before := (s.itemsRead.lookup serial).getD 0
  let next := (items.drop before).take count
  let others := s.itemsRead.filter fun entry => entry.1 != serial
  set { s with itemsRead := (serial, before + next.length) :: others }
  return next

/-- Puts together the outputs that the items of a list give rise to, in their order. -/
def concat (output : α → SessionM Text) : List α → SessionM Text
  | [] => pure []
  | a :: as => do
    let first ← output a
    let rest ← concat output as
    return first ++ rest

/-- The output of one item stands for itself. -/
theorem concat_singleton (output : α → SessionM Text) (a : α) : concat output [a] = output a := by
  simp only [concat, pure_bind, List.append_nil, bind_pure]

/-- The outputs of the images of some items. -/
theorem concat_map {β : Type} (output : β → SessionM Text) (f : α → β) (as : List α) :
    concat output (as.map f) = concat (fun a => output (f a)) as := by
  induction as with
  | nil => rfl
  | cons a as ih => rw [List.map_cons, concat, concat, ih]

/-- The outputs that the items of a list give rise to, one by one, up to the first that fails. -/
def outputs (output : α → SessionM Text) :
    List α → Session → List Text × EStateM.Result Failure Session Unit
  | [], s => ([], .ok () s)
  | a :: as, s =>
    match (output a).run s with
    | .error e s => ([], .error e s)
    | .ok first s =>
      let (rest, finish) := outputs output as s
      (first :: rest, finish)

end SessionM

end Stencil
