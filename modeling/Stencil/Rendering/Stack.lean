import Stencil.Rendering.Nesting
import Stencil.Template.Depth

/-!
# The calls in progress

An interpreter keeps the calls in progress on a stack, and when there are too many of them it breaks
off what it is doing.  Rendering has calls in progress for every section and partial that it is in,
for the groups in the parameters of a tag and for the sequences in a value that is shown; reading
the source of a partial has some for the groups in its tags.

A `Stack` says how many calls there may be and how many are made for what.  `Rendering.rendererOn`
is `Rendering.renderer` on a stack.  Where there is no room left, it fails as a helper does that
finds none: inside a section or a partial this counts as going too deep, whatever the limit to the
levels is, and outside of them the failure comes out as it is.

The figures of `Stack.standard` are those of the interpreter that is used most, and none of them is
too large: what is broken off there would not be finished by any other count.
-/

set_option autoImplicit false

namespace Stencil

/-! ## How deep things are -/

mutual

/-- The number of sequences inside each other that a value consists of. -/
def Value.nesting : Value → Nat
  | .list items | .tuple items => Value.nestingOfItems items + 1
  | _ => 0

/-- The greatest number of sequences inside each other that one of some values consists of. -/
def Value.nestingOfItems : List Value → Nat
  | [] => 0
  | v :: vs => max v.nesting (Value.nestingOfItems vs)

end

/-- The number of groups inside each other that are gone into before anything else is done for an
expression.  One whose name is not found is not gone into. -/
def Expr.firstDepth (finds : Path → Bool) : Expr → Nat
  | .path _ | .literal _ _ => 0
  | .call _ head (e :: _) _ | .call _ head [] ((_, e) :: _) =>
    if finds head then e.firstDepth finds + 1 else 0
  | .call _ head [] [] => if finds head then 1 else 0

/-- The number of groups inside each other that are gone into before anything else is done for the
first of some parameters. -/
def Expr.firstDepthOf (finds : Path → Bool) (params : List Expr) (named : List (Text × Expr)) :
    Nat :=
  match params.head? <|> (named.head?.map Prod.snd) with
  | some e => e.firstDepth finds
  | none => 0

namespace Rendering

/-- The number of groups inside each other that a call goes into before anything else.  Where
helpers are given the source of their parameters, there is none. -/
def callDepth (r : Rendering) (c : Call) : Nat :=
  if !r.stringParams && (r.helperNamed? c.head).isSome then
    Expr.firstDepthOf (fun p => (r.helperNamed? p).isSome) c.params c.named
  else 0

/-- The number of groups inside each other that a partial tag goes into before anything else. -/
def partialDepth (r : Rendering) (c : PartialCall) : Nat :=
  let finds (p : Path) : Bool := (r.helperNamed? p).isSome
  if r.stringParams then 0
  else
    match c.name with
    | .literal _ _ => Expr.firstDepthOf finds c.context.toList c.named
    | name => name.firstDepth finds

/-- The number of sequences inside each other that an output tag without parameters shows. -/
def shownDepth (f : Frame) (c : Call) : Nat :=
  match f.resolve c.head false with
  | .ok v => v.nesting
  | .error _ => 0

end Rendering

/-! ## Stacks -/

/-- How many calls an interpreter can have in progress, and how many of them there are for what. -/
structure Stack where
  /-- The greatest number of calls that can be in progress. -/
  size : Nat
  /-- The number of calls around the rendering of a template, and around a compilation. -/
  outermost : Nat
  /-- The number of calls for going through some nodes. -/
  sequence : Nat
  /-- The number of calls between a tag in one frame and the nodes inside the level that it enters,
  in another. -/
  level : Label → (outside inside : Frame) → Nat
  /-- The number of calls that a node in a frame makes before it enters a level. -/
  before : Rendering → Frame → Node → Nat
  /-- The number of calls that it makes inside a level before that renders anything. -/
  inside : Rendering → Frame → Node → Nat
  /-- The number of calls for reading a group. -/
  group : Nat

namespace Stack

/-- The number of calls from a section with a built-in block helper to the nodes of a branch.  There
are more if the helper goes through the items of a sequence. -/
def helperLevel (name : Text) (outside inside : Frame) : Nat :=
  if name = "each".toList ∧ outside.outer.length < inside.outer.length ∧
      Table.contains inside.current.locals "index" then 12
  else 10

/-- The stack of an interpreter that has not been told anything else. -/
def standard : Stack where
  size := 1000
  outermost := 3
  sequence := 3
  level label outside inside :=
    match label with
    | .partialNamed _ => 6
    | .block name => if (builtinArity? name).isSome then helperLevel name outside inside else 6
    | .inverted name => if (builtinArity? name).isSome then helperLevel name outside inside else 5
  before r f node :=
    match node with
    | .text _ | .comment _ | .block _ _ _ _ _ => 1
    | .output _ c _ =>
      if c.hasArguments then 4 + 4 * r.callDepth c else 2 + 3 * Rendering.shownDepth f c
    | .partialTag c _ _ => 2 + 4 * r.partialDepth c
  inside r _ node :=
    match node with
    | .block _ c _ _ _ => if c.hasArguments then 4 + 4 * r.callDepth c else 3
    | _ => 0
  group := 3

/-- The words for a stack that has no room left. -/
def message : Text := "maximum recursion depth exceeded"

/-- Goes on if some number of calls can be in progress. -/
def hold (stack : Stack) (calls : Nat) : SessionM Unit :=
  if stack.size < calls then throw (.exhausted message) else pure ()

/-- The number of groups that can be open while a source is read, with some calls in progress
outside. -/
def groupRoom (stack : Stack) (calls : Nat) : Nat :=
  (stack.size - calls) / stack.group

end Stack

/-! ## Compiling -/

/-- Does something unless it breaks down in the session as it is.  Then there is no room left, and
only what has been recorded by then has happened. -/
def SessionM.unlessBroken {α : Type} (breakdown? : Store → Option (List Event))
    (act : SessionM α) : SessionM α := do
  match breakdown? (← get).store with
  | some events =>
    SessionM.record events
    throw (.exhausted Stack.message)
  | none => act

namespace Environment

variable (env : Environment) (room : Nat)

/-- Whether compiling what a key stands for breaks down, because there is room for fewer groups than
its source has open at once. -/
def keyBreakdown? (key : CacheKey) (s : Store) : Option (List Event) :=
  if (s.cache.get? key).isSome then none
  else
    match Template.compileWithin room env.helpers.known key.options key.name key.source with
    | some _ => none
    | none => some (Template.scanEvents key.options key.source)

/-- Whether compiling a source with the options of the configuration breaks down. -/
def sourceBreakdown? (name source : Text) (s : Store) : Option (List Event) :=
  match env.config.compileOptions with
  | .error _ => none
  | .ok options => env.keyBreakdown? room { name, source, options } s

/-- Whether looking for the partial of a name breaks down.  A partial that is registered has been
compiled. -/
def partialBreakdown? (name : Text) (s : Store) : Option (List Event) :=
  match Table.get? s.partials name, env.loader with
  | none, some loader =>
    if (loader.fault? name).isSome then none
    else
      match loader.load name with
      | (events, some source) =>
        (env.sourceBreakdown? room name source s).map fun further =>
          events ++ .partialLoaded name :: further
      | (_, none) => none
  | _, _ => none

/-- Compiles what a key stands for when there is room for some number of groups. -/
def compileKeyWithin (key : CacheKey) : SessionM Handle :=
  .unlessBroken (env.keyBreakdown? room key) (env.compileKey key)

/-- Compiles a source with the options of the configuration when there is room for some number of
groups. -/
def compileWithin (name source : Text) : SessionM Handle :=
  .unlessBroken (env.sourceBreakdown? room name source) (env.compile name source)

/-- The partial of a name, when there is room for some number of groups. -/
def partialWithin (name : Text) : SessionM Handle :=
  .unlessBroken (env.partialBreakdown? room name) (env.partialNamed name)

end Environment

/-! ## Rendering -/

namespace Rendering

variable (stack : Stack) (r : Rendering)

/-- Renders the partial of a name with some calls in progress. -/
def partialOn (calls : Nat) (enter : Entrance) (name : Text) (f : Frame) : SessionM Text := do
  let h ← r.env.partialWithin (stack.groupRoom calls) name
  enter (.partialNamed name) fun inner => inner.nodes h.template.nodes f

/-- The renderer of a level, given how the next one is entered from a frame with some calls in
progress, when some more are made inside it at once.  There are `calls` in progress around the
level, and `around f` around its nodes where these are rendered in `f`. -/
def levelOn (calls : Nat) (around : Frame → Nat)
    (enter : (f : Frame) → (calls inside : Nat) → Entrance) : Renderer where
  nodes nodes f :=
    let enter := enter f (around f)
    SessionM.concat (fun n => do
      stack.hold (around f + stack.before r f n)
      r.node (r.partialOn stack (around f) (enter 0)) (enter (stack.inside r f n)) f n) nodes
  partialNamed name f := r.partialOn stack calls (enter f calls 0) name f

/-- The renderer of the level inside a chain of levels on a stack, when `room` more levels may be
entered. -/
def rendererOn : (room : Nat) → (chain : List Label) → (calls : Nat) → (around : Frame → Nat) →
    Renderer
  | 0, chain, calls, around =>
    r.levelOn stack calls around fun _ _ _ label _ => throw (r.tooDeep (label :: chain))
  | room + 1, chain, calls, around =>
    r.levelOn stack calls around fun f calls inside label act =>
      r.guarded (label :: chain) do
        stack.hold (calls + inside)
        act (rendererOn room (label :: chain) calls fun g => calls + stack.level label f g)

end Rendering

end Stencil
