import Stencil.Error
import Stencil.Path
import Stencil.Table
import Stencil.Value.Field

/-!
# Scopes and the resolution of paths

Rendering goes through a chain of scopes.  A scope has a value, the variables that `@`-paths see
(an index, a key), and the bindings that a partial was called with.  Entering a scope puts it in
front of the chain and leaves the chain as it was, so a frame never changes.

`Frame.resolve` follows a path:

* leave as many scopes as the path has parent markers; there must be that many;
* find the first segment: a variable of the nearest scope that has it for a data path, and else a
  binding of the scope reached or a field of its value;
* look up the other segments one after another.

A segment that is not found makes the answer undefined, or with strict resolution an error.
-/

set_option autoImplicit false

namespace Stencil

/-- One level of a chain of scopes. -/
structure Scope where
  /-- The value that paths start from. -/
  value : Value
  /-- The variables that data paths see. -/
  locals : Table Value
  /-- Names that take precedence over the fields of the value. -/
  bindings : Table Value

/-- A chain of scopes. -/
structure Frame where
  /-- The innermost scope. -/
  current : Scope
  /-- The scopes around it, innermost first. -/
  outer : List Scope

namespace Frame

/-- The frame of a rendering that starts with a value. -/
def root (value : Value) : Frame :=
  ⟨⟨value, [], []⟩, []⟩

/-- The value of the innermost scope. -/
def value (f : Frame) : Value :=
  f.current.value

/-- Enters a scope. -/
def push (f : Frame) (value : Value) (locals bindings : Table Value) : Frame :=
  ⟨⟨value, locals, bindings⟩, f.current :: f.outer⟩

/-- The frame that the innermost scope was entered from. -/
def parent? (f : Frame) : Option Frame :=
  match f.outer with
  | [] => none
  | current :: outer => some ⟨current, outer⟩

@[simp] theorem parent?_push (f : Frame) (value : Value) (locals bindings : Table Value) :
    (f.push value locals bindings).parent? = some f := rfl

/-- The frame `n` scopes up. -/
def ancestor? : (n : Nat) → Frame → Option Frame
  | 0, f => some f
  | n + 1, f => f.parent?.bind (ancestor? n)

/-- All scopes, innermost first. -/
def scopes (f : Frame) : List Scope :=
  f.current :: f.outer

/-- The value of the outermost scope. -/
def rootValue (f : Frame) : Value :=
  (f.scopes.getLast (by simp [scopes])).value

/-- The variable of the nearest scope that has it; `root` names the outermost value. -/
def variableNamed (f : Frame) (name : Text) : Value :=
  if name = ['r', 'o', 'o', 't'] then f.rootValue
  else (f.scopes.findSome? fun scope => Table.get? scope.locals name).getD .undefined

/-- What the first segment of a path leads to from the scope reached. -/
def start (f : Frame) (isData : Bool) (segment : Text) : Value :=
  if isData then f.variableNamed segment
  else
    match Table.get? f.current.bindings segment with
    | some v => v
    | none => f.value.field segment

/-- Answers a value that a segment has led to, or reports the segment if nothing is there. -/
def found (p : Path) (strict : Bool) (segment : Text) (v : Value) : Except TemplateError Value :=
  if v.isUndefined && strict then .error (.undefinedVariable p.source segment) else .ok v

/-- Looks up segments one after another. -/
def follow (p : Path) (strict : Bool) : Value → List Text → Except TemplateError Value
  | v, [] => .ok v
  | v, segment :: rest =>
    match found p strict segment (v.field segment) with
    | .error e => .error e
    | .ok v => follow p strict v rest

/-- The value that a path leads to. -/
def resolve (f : Frame) (p : Path) (strict : Bool) : Except TemplateError Value :=
  match ancestor? p.depth f with
  | none => .error (.pastRoot p.source p.depth)
  | some f =>
    match p.segments with
    | [] => .ok f.value
    | segment :: rest =>
      match found p strict segment (f.start p.isData segment) with
      | .error e => .error e
      | .ok v => follow p strict v rest

end Frame

end Stencil
