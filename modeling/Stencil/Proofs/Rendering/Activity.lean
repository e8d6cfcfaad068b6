import Mathlib.Logic.Relation
import Stencil.Proofs.Rendering.Failure
import Stencil.Proofs.Rendering.Iteration

/-!
# What goes on in a rendering

A rendering consists of activities that are nested in each other: a template is rendered node by
node, a section renders its branches, a partial tag evaluates expressions and renders a partial, a
call has a helper and parameters, and a helper asks for branches, partials and values while its
script is served.  An `Activity` is one of these with everything it needs but the session, and a
`Moment` is an activity that begins in a session.

`Rendering.Involves` says which activity leads to which others, and in which sessions these begin.
There is a rule for each place in which one function of the renderer goes on in another, and what
comes later begins where what comes before has ended.  The rules do not speak of failures.  That a
failure passes from an inner activity to the outer one is a fact about them
(`Rendering.Involves.fails`), and so it passes outwards through any number of activities
(`Rendering.Comprises.fails`).  Whatever is part of a call has been begun by the tag of the call
(`Rendering.Comprises.exists_tag`).
-/

set_option autoImplicit false

namespace Stencil

/-! ## How operations fail -/

namespace SessionM

variable {α β : Type}

/-- From a session, an operation fails in this way. -/
def FailsFrom (x : SessionM α) (s : Session) (e : Failure) : Prop :=
  ∃ t, x.run s = .error e t

/-- What succeeds does not fail. -/
theorem not_failsFrom_of_ok {x : SessionM α} {s t : Session} {a : α} {e : Failure}
    (h : x.run s = .ok a t) : ¬ x.FailsFrom s e := by
  rintro ⟨u, hu⟩
  cases h.symm.trans hu

theorem not_failsFrom_pure {a : α} {s : Session} {e : Failure} :
    ¬ (pure a : SessionM α).FailsFrom s e :=
  not_failsFrom_of_ok rfl

/-- What is composed fails as its first part does, or as its second part does afterwards. -/
theorem failsFrom_bind {x : SessionM α} {f : α → SessionM β} {s : Session} {e : Failure} :
    (x >>= f).FailsFrom s e ↔
      x.FailsFrom s e ∨ ∃ a t, x.run s = .ok a t ∧ (f a).FailsFrom t e := by
  rw [FailsFrom, FailsFrom, EStateM.run_bind]
  cases x.run s with
  | ok a t => simp [FailsFrom]
  | error e' t => simp

namespace FailsFrom

variable {x : SessionM α} {f : α → SessionM β} {s t : Session} {e : Failure}

/-- The first part of what is composed fails. -/
theorem bind (h : x.FailsFrom s e) (f : α → SessionM β) : (x >>= f).FailsFrom s e :=
  failsFrom_bind.2 (.inl h)

/-- The second part fails after the first one has come to its end. -/
theorem after {a : α} (hx : x.run s = .ok a t) (h : (f a).FailsFrom t e) :
    (x >>= f).FailsFrom s e :=
  failsFrom_bind.2 (.inr ⟨a, t, hx, h⟩)

/-- An answer that is handed on is no failure. -/
theorem of_bind_pure {g : α → β} (h : (x >>= fun a => Pure.pure (g a)).FailsFrom s e) :
    x.FailsFrom s e := by
  rcases failsFrom_bind.1 h with hx | ⟨a, t, -, hpure⟩
  · exact hx
  · exact absurd hpure not_failsFrom_pure

/-- A guard passes on the errors about templates. -/
theorem guarded {act : SessionM Text} {error : TemplateError}
    (h : act.FailsFrom s (.template error)) (r : Rendering) (chain : List Label) :
    (r.guarded chain act).FailsFrom s (.template error) := by
  obtain ⟨t, ht⟩ := h
  refine ⟨t, ?_⟩
  rw [Rendering.guarded, Lockstep.run_tryCatch, ht]
  rfl

/-- Helpers pass on the errors about templates. -/
theorem onBehalf {error : TemplateError} (h : x.FailsFrom s (.template error)) (name : Text)
    (position : Position) : (x.onBehalf name position).FailsFrom s (.template error) := by
  obtain ⟨t, ht⟩ := h
  refine ⟨t, ?_⟩
  rw [run_onBehalf, ht]
  rfl

end FailsFrom

theorem failsFrom_ofExcept {r : Except TemplateError α} {s : Session} {error : TemplateError} :
    (SessionM.ofExcept r).FailsFrom s (.template error) ↔ r = .error error := by
  cases r with
  | ok a => exact ⟨fun h => absurd h not_failsFrom_pure, nofun⟩
  | error e =>
    refine ⟨fun ⟨t, h⟩ => ?_, fun h => ?_⟩
    · rw [← Failure.template.inj (EStateM.Result.error.inj h).1]
    · obtain rfl := Except.error.inj h
      exact ⟨s, rfl⟩

theorem run_ofExcept_eq_ok {r : Except TemplateError α} {a : α} {s t : Session}
    (h : (SessionM.ofExcept r).run s = .ok a t) : r = .ok a ∧ t = s := by
  cases r with
  | ok b =>
    obtain ⟨rfl, rfl⟩ := EStateM.Result.ok.inj h
    exact ⟨rfl, rfl⟩
  | error e => exact absurd h nofun

end SessionM

/-! ## Activities -/

/-- Something that goes on in a rendering. -/
inductive Activity where
  /-- Rendering nodes. -/
  | nodes (l : Level) (ns : List Node) (f : Frame)
  /-- Rendering the same nodes in one frame after another. -/
  | repeated (l : Level) (ns : List Node) (fs : List Frame)
  /-- Rendering a node. -/
  | node (l : Level) (n : Node) (f : Frame)
  /-- Rendering what a section consists of, inside of it. -/
  | inside (l : Level) (inverted : Bool) (c : Call) (body : List Node)
      (inverse : Option (List Node)) (position : Position) (f : Frame)
  /-- Rendering a partial. -/
  | insertion (l : Level) (name : Text) (f : Frame)
  /-- Finding a partial. -/
  | find (name : Text)
  /-- Looking up a path. -/
  | lookup (f : Frame) (p : Path) (strict : Bool)
  /-- Evaluating an expression. -/
  | expr (l : Level) (e : Expr) (f : Frame)
  /-- Evaluating one expression after another. -/
  | exprs (l : Level) (es : List Expr) (f : Frame)
  /-- Making a call. -/
  | call (l : Level) (c : Call) (position : Position) (branches : Option Branches) (f : Frame)
  /-- Finding the helper of a call. -/
  | dispatch (p : Path) (position : Position)
  /-- Serving what is left of the script of a helper. -/
  | script (l : Level) (site : CallSite) (s : Script Value) (output : Text)

/-- An activity that begins in a session. -/
structure Moment where
  /-- The activity. -/
  activity : Activity
  /-- The session. -/
  session : Session

/-- The nodes of a branch. -/
def Branch.nodes (body inverse : Option (List Node)) : Branch → List Node
  | .body => body.getD []
  | .inverse => inverse.getD []

/-- The frame that a section enters for a value that is no sequence.  The value `true` is not
entered. -/
def Frame.entered (f : Frame) : Value → Frame
  | .bool true => f
  | v => f.push v [] []

/-- What a section renders by the value of its path: a branch, and the frames that this is rendered
in one after another. -/
def Frame.ofSection (f : Frame) (inverted : Bool) (v : Value) : Branch × List Frame :=
  if inverted then (if v.isTruthy false then .inverse else .body, [f])
  else
    match v.items? with
    | some [] => (.inverse, [f])
    | some items => (.body, f.ofItems items)
    | none => if v.isTruthy false then (.body, [f.entered v]) else (.inverse, [f])

namespace Script

variable {α : Type}

/-- Asks for something on behalf of a script and answers what is left of the script.  It raises an
error that is none of templates itself. -/
def ask (act : SessionM Text) (next : Text → Script α) : SessionM (Script α) :=
  tryCatch (act >>= fun t => pure (next t)) fun
    | .foreign e => pure (.stop (.failure e.kind e.reason))
    | e => throw e

theorem run_ask (act : SessionM Text) (next : Text → Script α) (s : Session) :
    (ask act next).run s =
      match act.run s with
      | .ok t s => .ok (next t) s
      | .error (.foreign e) s => .ok (.stop (.failure e.kind e.reason)) s
      | .error e s => .error e s := by
  rw [ask, SessionM.Lockstep.run_tryCatch, EStateM.run_bind]
  cases act.run s with
  | ok t s' => rfl
  | error e s' => cases e <;> rfl

/-- Serving what is left after something has been asked for. -/
theorem ask_bind_run {r : Rendering} {partials : PartialRenderer} {site : CallSite}
    (act : SessionM Text) (next : Text → Script α) (output : Text) :
    (ask act next >>= fun rest => rest.run r partials site output) =
      act.onBehalf site.name site.position >>= fun t => (next t).run r partials site output := by
  funext s
  show (ask act next >>= fun rest => rest.run r partials site output).run s =
    (act.onBehalf site.name site.position >>= fun t => (next t).run r partials site output).run s
  rw [EStateM.run_bind, EStateM.run_bind, run_ask, SessionM.run_onBehalf]
  cases act.run s with
  | ok t s' => rfl
  | error e s' => cases e <;> rfl

/-- Asking for something fails as that does, if it is an error about templates. -/
theorem failsFrom_ask {act : SessionM Text} {next : Text → Script α} {s : Session}
    {error : TemplateError} :
    (ask act next).FailsFrom s (.template error) ↔ act.FailsFrom s (.template error) := by
  rw [SessionM.FailsFrom, SessionM.FailsFrom, run_ask]
  cases act.run s with
  | ok t s' => simp
  | error e s' => cases e <;> simp

/-- What is left when something has been asked for. -/
theorem exists_of_run_ask_eq_ok {act : SessionM Text} {next : Text → Script α} {s t : Session}
    {rest : Script α} (h : (ask act next).run s = .ok rest t) :
    (∃ answer, rest = next answer) ∨ ∃ why, rest = .stop why := by
  rw [run_ask] at h
  split at h
  · obtain ⟨rfl, -⟩ := EStateM.Result.ok.inj h
    exact .inl ⟨_, rfl⟩
  · obtain ⟨rfl, -⟩ := EStateM.Result.ok.inj h
    exact .inr ⟨_, rfl⟩
  · exact absurd h nofun

/-- Serves the first request of a script, if there is one, and answers what is left of the script
and what has been written by then. -/
def step (r : Rendering) (partials : PartialRenderer) (site : CallSite) :
    Script α → (output : Text) → Option (SessionM (Script α × Text))
  | .done _, _ => none
  | .stop _, _ => none
  | .render branch e next, output => some do
    let rest ← ask (site.renderBranch branch e) next
    return (rest, output)
  | .partialNamed name context next, output => some do
    let rest ← ask (partials name ({ context : Entering }.frame site.frame)) next
    return (rest, output)
  | .resolve path next, output => some do
    let p ← SessionM.ofExcept ((Path.parse path).mapError fun fault => .malformed fault .none)
    let v ← r.resolve site.frame p
    return (next v, output)
  | .readVariable name next, output => some (pure (next (site.frame.variableNamed name), output))
  | .newStream items next, output => some do
    let v ← SessionM.newStream items
    return (next v, output)
  | .read serial items count next, output => some do
    let vs ← SessionM.read serial items count
    return (next vs, output)
  | .write t next, output => some (pure (next, output ++ t))
  | .written next, output => some (pure (next output, output))
  | .log level message next, output => some do
    SessionM.record [.message level message]
    return (next, output)

/-- Serving a script is serving its first request and then what is left. -/
theorem run_of_step {r : Rendering} {partials : PartialRenderer} {site : CallSite} {s : Script α}
    {output : Text} {act : SessionM (Script α × Text)}
    (h : s.step r partials site output = some act) :
    s.run r partials site output = act >>= fun rest => rest.1.run r partials site rest.2 := by
  cases s with
  | done answer => exact absurd h nofun
  | stop why => exact absurd h nofun
  | render branch e next | partialNamed name context next =>
    obtain rfl := Option.some.inj h
    simp only [run, LawfulMonad.bind_assoc, pure_bind]
    exact (ask_bind_run _ _ _).symm
  | resolve path next | readVariable name next | newStream items next | write t next
  | read serial items count next | written next | log level message next =>
    obtain rfl := Option.some.inj h
    simp only [run, LawfulMonad.bind_assoc, pure_bind]

end Script

namespace Rendering

variable (r : Rendering)

/-- Renders a node on a level. -/
def nodeOn (l : Level) (f : Frame) (n : Node) : SessionM Text :=
  r.node (r.rendererOf l).partialNamed (r.entrance l) f n

/-- The values of some expressions. -/
def evaluateAll (partials : PartialRenderer) (f : Frame) : List Expr → SessionM (List Value)
  | [] => pure []
  | e :: es => do
    let v ← r.evaluate partials f e
    let vs ← evaluateAll partials f es
    return v :: vs

/-- The value that a partial tag with parameters renders its partial in. -/
def contextOf (partials : PartialRenderer) (f : Frame) (c : PartialCall) : SessionM Value :=
  match c.context with
  | some e => r.evaluate partials f e
  | none => pure f.value

/-- The branches of a call that is a section. -/
def sectionBranches (l : Level) (inverted : Bool) (body : List Node)
    (inverse : Option (List Node)) : Branches :=
  if inverted then .ofNodes (r.rendererOf l).nodes inverse (some body)
  else .ofNodes (r.rendererOf l).nodes (some body) inverse

/-- The script that a helper serves a call with. -/
def scriptOf (site : CallSite) (helper : Helper) (params : List Value) (named : Table Value) :
    Script Value :=
  helper.handle (site.invocation r.stringParams params named)

/-- **The first of two moments leads to the second one**, without any other between them. -/
inductive Involves : Moment → Moment → Prop
  /-- Nodes are rendered one after another. -/
  | firstNode {l : Level} {n : Node} {ns : List Node} {f : Frame} {s : Session} :
      Involves ⟨.nodes l (n :: ns) f, s⟩ ⟨.node l n f, s⟩
  | otherNodes {l : Level} {n : Node} {ns : List Node} {f : Frame} {s t : Session} {output : Text}
      (h : (r.nodeOn l f n).run s = .ok output t) :
      Involves ⟨.nodes l (n :: ns) f, s⟩ ⟨.nodes l ns f, t⟩
  /-- So are the same nodes in one frame after another. -/
  | firstFrame {l : Level} {ns : List Node} {f : Frame} {fs : List Frame} {s : Session} :
      Involves ⟨.repeated l ns (f :: fs), s⟩ ⟨.nodes l ns f, s⟩
  | otherFrames {l : Level} {ns : List Node} {f : Frame} {fs : List Frame} {s t : Session}
      {output : Text} (h : ((r.rendererOf l).nodes ns f).run s = .ok output t) :
      Involves ⟨.repeated l ns (f :: fs), s⟩ ⟨.repeated l ns fs, t⟩
  /-- An output tag with parameters makes a call. -/
  | outputCall {l : Level} {escaped : Bool} {c : Call} {position : Position} {f : Frame}
      {s : Session} (h : c.hasArguments = true) :
      Involves ⟨.node l (.output escaped c position) f, s⟩ ⟨.call l c position none f, s⟩
  /-- Without parameters it looks up its path. -/
  | outputPath {l : Level} {escaped : Bool} {c : Call} {position : Position} {f : Frame}
      {s : Session} (h : c.hasArguments = false) :
      Involves ⟨.node l (.output escaped c position) f, s⟩ ⟨.lookup f c.head false, s⟩
  /-- Where this finds nothing, the helper of that name is called. -/
  | outputHelper {l : Level} {escaped : Bool} {c : Call} {position : Position} {f : Frame}
      {s : Session} {helper : Helper} (h : c.hasArguments = false)
      (hv : f.resolve c.head false = .ok .undefined)
      (hhelper : r.helperNamed? c.head = some helper) :
      Involves ⟨.node l (.output escaped c position) f, s⟩
        ⟨.script l ⟨c.head.source, position, f, none⟩
          (r.scriptOf ⟨c.head.source, position, f, none⟩ helper [] []) [], s⟩
  /-- Without such a helper, the path is looked up as strictly as is asked for. -/
  | outputUndefined {l : Level} {escaped : Bool} {c : Call} {position : Position} {f : Frame}
      {s : Session} (h : c.hasArguments = false) (hv : f.resolve c.head false = .ok .undefined)
      (hhelper : r.helperNamed? c.head = none) :
      Involves ⟨.node l (.output escaped c position) f, s⟩ ⟨.lookup f c.head r.strict, s⟩
  /-- A section goes on one level deeper. -/
  | block {room : Nat} {chain : List Label} {inverted : Bool} {c : Call} {body : List Node}
      {inverse : Option (List Node)} {position : Position} {f : Frame} {s : Session} :
      Involves ⟨.node ⟨room + 1, chain⟩ (.block inverted c body inverse position) f, s⟩
        ⟨.inside ⟨room, .ofSection inverted c :: chain⟩ inverted c body inverse position f, s⟩
  /-- There it makes a call, if it has parameters or names a helper. -/
  | blockCall {l : Level} {inverted : Bool} {c : Call} {body : List Node}
      {inverse : Option (List Node)} {position : Position} {f : Frame} {s : Session}
      (h : (c.hasArguments || (r.helperNamed? c.head).isSome) = true) :
      Involves ⟨.inside l inverted c body inverse position f, s⟩
        ⟨.call l c position (some (r.sectionBranches l inverted body inverse)) f, s⟩
  /-- Any other section looks up its path. -/
  | blockPath {l : Level} {inverted : Bool} {c : Call} {body : List Node}
      {inverse : Option (List Node)} {position : Position} {f : Frame} {s : Session}
      (h : (c.hasArguments || (r.helperNamed? c.head).isSome) = false) :
      Involves ⟨.inside l inverted c body inverse position f, s⟩ ⟨.lookup f c.head r.strict, s⟩
  /-- Then it renders a branch by the value. -/
  | blockBranch {l : Level} {inverted : Bool} {c : Call} {body : List Node}
      {inverse : Option (List Node)} {position : Position} {f : Frame} {s : Session} {v : Value}
      (h : (c.hasArguments || (r.helperNamed? c.head).isSome) = false)
      (hv : f.resolve c.head r.strict = .ok v) :
      Involves ⟨.inside l inverted c body inverse position f, s⟩
        ⟨.repeated l ((f.ofSection inverted v).1.nodes (some body) inverse)
          (f.ofSection inverted v).2, s⟩
  /-- A partial tag evaluates the name of the partial. -/
  | partialName {l : Level} {c : PartialCall} {indent : Text} {position : Position} {f : Frame}
      {s : Session} :
      Involves ⟨.node l (.partialTag c indent position) f, s⟩ ⟨.expr l c.name f, s⟩
  /-- It evaluates the value of the scope, if one is given. -/
  | partialContext {l : Level} {c : PartialCall} {indent : Text} {position : Position} {f : Frame}
      {s t : Session} {name : Text} {e : Expr}
      (hname : (r.partialName (r.rendererOf l).partialNamed f c.name).run s = .ok name t)
      (hcontext : c.context = some e) :
      Involves ⟨.node l (.partialTag c indent position) f, s⟩ ⟨.expr l e f, t⟩
  /-- After it, the bindings. -/
  | partialBindings {l : Level} {c : PartialCall} {indent : Text} {position : Position} {f : Frame}
      {s t u : Session} {name : Text} {v : Value}
      (hname : (r.partialName (r.rendererOf l).partialNamed f c.name).run s = .ok name t)
      (hcontext : (r.contextOf (r.rendererOf l).partialNamed f c).run t = .ok v u) :
      Involves ⟨.node l (.partialTag c indent position) f, s⟩
        ⟨.exprs l (c.named.map Prod.snd) f, u⟩
  /-- After all of them, it renders the partial. -/
  | partialInsertion {l : Level} {c : PartialCall} {indent : Text} {position : Position}
      {f g : Frame} {s t u : Session} {name : Text}
      (hname : (r.partialName (r.rendererOf l).partialNamed f c.name).run s = .ok name t)
      (hframe : (r.partialFrame (r.rendererOf l).partialNamed f c).run t = .ok g u) :
      Involves ⟨.node l (.partialTag c indent position) f, s⟩ ⟨.insertion l name g, u⟩
  /-- A partial has to be found. -/
  | find {l : Level} {name : Text} {f : Frame} {s : Session} :
      Involves ⟨.insertion l name f, s⟩ ⟨.find name, s⟩
  /-- Then it is rendered, one level deeper. -/
  | found {room : Nat} {chain : List Label} {name : Text} {f : Frame} {s t : Session} {h : Handle}
      (hfound : (r.env.partialNamed name).run s = .ok h t) :
      Involves ⟨.insertion ⟨room + 1, chain⟩ name f, s⟩
        ⟨.nodes ⟨room, .partialNamed name :: chain⟩ h.template.nodes f, t⟩
  /-- A path is looked up. -/
  | path {l : Level} {p : Path} {f : Frame} {s : Session} :
      Involves ⟨.expr l (.path p) f, s⟩ ⟨.lookup f p r.strict, s⟩
  /-- A call in parentheses is made, at no place. -/
  | group {l : Level} {source : Text} {head : Path} {params : List Expr}
      {named : List (Text × Expr)} {f : Frame} {s : Session} :
      Involves ⟨.expr l (.call source head params named) f, s⟩
        ⟨.call l ⟨head, params, named⟩ .none none f, s⟩
  /-- Expressions are evaluated one after another. -/
  | firstExpr {l : Level} {e : Expr} {es : List Expr} {f : Frame} {s : Session} :
      Involves ⟨.exprs l (e :: es) f, s⟩ ⟨.expr l e f, s⟩
  | otherExprs {l : Level} {e : Expr} {es : List Expr} {f : Frame} {s t : Session} {v : Value}
      (h : (r.evaluate (r.rendererOf l).partialNamed f e).run s = .ok v t) :
      Involves ⟨.exprs l (e :: es) f, s⟩ ⟨.exprs l es f, t⟩
  /-- For a call a helper has to be found. -/
  | dispatch {l : Level} {c : Call} {position : Position} {branches : Option Branches} {f : Frame}
      {s : Session} : Involves ⟨.call l c position branches f, s⟩ ⟨.dispatch c.head position, s⟩
  /-- The positional parameters are evaluated, unless helpers are given their source. -/
  | params {l : Level} {c : Call} {position : Position} {branches : Option Branches} {f : Frame}
      {s t : Session} {helper : Helper} (hvalues : r.stringParams = false)
      (hhelper : (r.helperFor c.head position).run s = .ok helper t) :
      Involves ⟨.call l c position branches f, s⟩ ⟨.exprs l c.params f, t⟩
  /-- After them, the named ones. -/
  | named {l : Level} {c : Call} {position : Position} {branches : Option Branches} {f : Frame}
      {s t u : Session} {helper : Helper} {params : List Value} (hvalues : r.stringParams = false)
      (hhelper : (r.helperFor c.head position).run s = .ok helper t)
      (hparams : (r.arguments (r.rendererOf l).partialNamed f c.params).run t = .ok params u) :
      Involves ⟨.call l c position branches f, s⟩ ⟨.exprs l (c.named.map Prod.snd) f, u⟩
  /-- After all of them, the script of the helper is served. -/
  | script {l : Level} {c : Call} {position : Position} {branches : Option Branches} {f : Frame}
      {s t u w : Session} {helper : Helper} {params : List Value} {named : List (Text × Value)}
      (hhelper : (r.helperFor c.head position).run s = .ok helper t)
      (hparams : (r.arguments (r.rendererOf l).partialNamed f c.params).run t = .ok params u)
      (hnamed : (r.namedArguments (r.rendererOf l).partialNamed f c.named).run u = .ok named w) :
      Involves ⟨.call l c position branches f, s⟩
        ⟨.script l ⟨c.head.source, position, f, branches⟩
          (r.scriptOf ⟨c.head.source, position, f, branches⟩ helper params (Table.ofList named)) [],
          w⟩
  /-- A script asks for a branch. -/
  | scriptBranch {l : Level} {site : CallSite} {branch : Branch} {e : Entering}
      {next : Text → Script Value} {output : Text} {s : Session}
      {body inverse : Option (List Node)}
      (h : site.branches = some (.ofNodes (r.rendererOf l).nodes body inverse)) :
      Involves ⟨.script l site (.render branch e next) output, s⟩
        ⟨.nodes l (branch.nodes body inverse) (e.frame site.frame), s⟩
  /-- It asks for a partial. -/
  | scriptPartial {l : Level} {site : CallSite} {name : Text} {context : Option Value}
      {next : Text → Script Value} {output : Text} {s : Session} :
      Involves ⟨.script l site (.partialNamed name context next) output, s⟩
        ⟨.insertion l name ({ context : Entering }.frame site.frame), s⟩
  /-- It asks for the value of a path. -/
  | scriptPath {l : Level} {site : CallSite} {path : Text} {next : Value → Script Value}
      {output : Text} {s : Session} {p : Path} (h : Path.parse path = .ok p) :
      Involves ⟨.script l site (.resolve path next) output, s⟩
        ⟨.lookup site.frame p r.strict, s⟩
  /-- It goes on after its first request. -/
  | scriptRest {l : Level} {site : CallSite} {script rest : Script Value} {output output' : Text}
      {s t : Session} {act : SessionM (Script Value × Text)}
      (hstep : script.step r (r.rendererOf l).partialNamed site output = some act)
      (h : act.run s = .ok (rest, output') t) :
      Involves ⟨.script l site script output, s⟩ ⟨.script l site rest output', t⟩

end Rendering

/-- What begins at a moment fails in this way. -/
def Moment.Fails (r : Rendering) : Moment → Failure → Prop
  | ⟨.nodes l ns f, s⟩, e => ((r.rendererOf l).nodes ns f).FailsFrom s e
  | ⟨.repeated l ns fs, s⟩, e => (SessionM.concat ((r.rendererOf l).nodes ns) fs).FailsFrom s e
  | ⟨.node l n f, s⟩, e => (r.nodeOn l f n).FailsFrom s e
  | ⟨.inside l inverted c body inverse position f, s⟩, e =>
    (r.insideBlock (r.rendererOf l) f inverted c body inverse position).FailsFrom s e
  | ⟨.insertion l name f, s⟩, e => ((r.rendererOf l).partialNamed name f).FailsFrom s e
  | ⟨.find name, s⟩, e => (r.env.partialNamed name).FailsFrom s e
  | ⟨.lookup f p strict, s⟩, e => (SessionM.ofExcept (f.resolve p strict)).FailsFrom s e
  | ⟨.expr l expr f, s⟩, e => (r.evaluate (r.rendererOf l).partialNamed f expr).FailsFrom s e
  | ⟨.exprs l es f, s⟩, e => (r.evaluateAll (r.rendererOf l).partialNamed f es).FailsFrom s e
  | ⟨.call l c position branches f, s⟩, e =>
    (r.callAt (r.rendererOf l).partialNamed f c position branches).FailsFrom s e
  | ⟨.dispatch p position, s⟩, e => (r.helperFor p position).FailsFrom s e
  | ⟨.script l site script output, s⟩, e =>
    (script.run r (r.rendererOf l).partialNamed site output).FailsFrom s e

/-! ## The renderer, told by its activities -/

namespace Rendering

variable {r : Rendering}

theorem nodes_cons (l : Level) (n : Node) (ns : List Node) (f : Frame) :
    (r.rendererOf l).nodes (n :: ns) f = r.nodeOn l f n >>= fun first =>
      (r.rendererOf l).nodes ns f >>= fun rest => pure (first ++ rest) := by
  rw [nodeOn, rendererOf_eq]
  rfl

/-- A partial is found and then rendered inside of the level. -/
theorem partialNamed_eq (l : Level) (name : Text) (f : Frame) :
    (r.rendererOf l).partialNamed name f = r.env.partialNamed name >>= fun h =>
      r.entrance l (.partialNamed name) fun inner => inner.nodes h.template.nodes f := by
  rw [rendererOf_eq]
  rfl

/-- The branches that a script can ask for are rendered as nodes. -/
theorem render_ofNodes (nodes : List Node → Frame → SessionM Text)
    (body inverse : Option (List Node)) (branch : Branch) :
    (Branches.ofNodes nodes body inverse).render branch = nodes (branch.nodes body inverse) := by
  cases branch with
  | body => rfl
  | inverse => rfl

/-- A section by a value that is no sequence. -/
theorem plainSection_of_items?_none (inner : Renderer) (f : Frame) (body inverse : List Node)
    {v : Value} (h : v.items? = none) :
    plainSection inner f body inverse v =
      if v.isTruthy false then inner.nodes body (f.entered v) else inner.nodes inverse f := by
  rw [plainSection.eq_def, h]
  cases v with
  | bool b =>
    cases b with
    | true => rfl
    | false => rfl
  | _ => rfl

/-- **A section without a helper renders one branch in some frames.** -/
theorem plain_eq (inner : Renderer) (f : Frame) (inverted : Bool) (body : List Node)
    (inverse : Option (List Node)) (v : Value) :
    (if inverted then plainInverted inner f body (inverse.getD []) v
      else plainSection inner f body (inverse.getD []) v) =
    SessionM.concat (inner.nodes ((f.ofSection inverted v).1.nodes (some body) inverse))
      (f.ofSection inverted v).2 := by
  cases inverted with
  | true =>
    rw [if_pos rfl, plainInverted, Frame.ofSection, if_pos rfl]
    cases v.isTruthy false with
    | true => exact (SessionM.concat_singleton _ _).symm
    | false => exact (SessionM.concat_singleton _ _).symm
  | false =>
    rw [if_neg (by simp), Frame.ofSection, if_neg (by simp)]
    cases hitems : v.items? with
    | some items =>
      rw [plainSection.eq_def, hitems]
      cases items with
      | nil => exact (SessionM.concat_singleton _ _).symm
      | cons item items => exact (SessionM.concat_map _ _ _).symm
    | none =>
      rw [plainSection_of_items?_none inner f body _ hitems]
      cases v.isTruthy false with
      | true => exact (SessionM.concat_singleton _ _).symm
      | false => exact (SessionM.concat_singleton _ _).symm

section Expressions

variable {partials : PartialRenderer} {f : Frame}

theorem arguments_eq (hvalues : r.stringParams = false) (es : List Expr) :
    r.arguments partials f es = r.evaluateAll partials f es := by
  induction es with
  | nil => rw [arguments, evaluateAll]
  | cons e es ih =>
    rw [arguments, evaluateAll, hvalues, ih]
    rfl

theorem bindings_eq (es : List (Text × Expr)) :
    r.bindings partials f es = r.evaluateAll partials f (es.map Prod.snd) >>= fun vs =>
      pure ((es.map Prod.fst).zip vs) := by
  induction es with
  | nil => rfl
  | cons entry es ih =>
    simp only [bindings, ih, List.map_cons, evaluateAll, bind_assoc, pure_bind,
      List.zip_cons_cons]

theorem namedArguments_eq (hvalues : r.stringParams = false) (es : List (Text × Expr)) :
    r.namedArguments partials f es = r.bindings partials f es := by
  induction es with
  | nil => rw [namedArguments, bindings]
  | cons entry es ih =>
    rw [namedArguments, bindings, hvalues, ih]
    rfl

/-- The source of parameters is at hand. -/
theorem arguments_eq_asWritten (hsource : r.stringParams = true) (es : List Expr) :
    r.arguments partials f es = pure (es.map Expr.asWritten) := by
  induction es with
  | nil => rw [arguments, List.map_nil]
  | cons e es ih =>
    rw [arguments, hsource, ih]
    rfl

theorem namedArguments_eq_asWritten (hsource : r.stringParams = true) (es : List (Text × Expr)) :
    r.namedArguments partials f es = pure (es.map fun entry => (entry.1, entry.2.asWritten)) := by
  induction es with
  | nil => rw [namedArguments, List.map_nil]
  | cons entry es ih =>
    rw [namedArguments, hsource, ih]
    rfl

/-- A call in parentheses answers the value of its helper. -/
theorem evaluate_group (source : Text) (head : Path) (params : List Expr)
    (named : List (Text × Expr)) :
    r.evaluate partials f (.call source head params named) =
      r.callAt partials f ⟨head, params, named⟩ .none none >>= fun answer => pure answer.1 := by
  simp only [evaluate, callAt, bind_assoc]

/-- The name of a partial is the text of a value. -/
theorem partialName_failsFrom {e : Expr} {s : Session} {failure : Failure} :
    (r.partialName partials f e).FailsFrom s failure ↔
      (r.evaluate partials f e).FailsFrom s failure := by
  cases e with
  | literal source literal =>
    rw [partialName, evaluate]
    exact ⟨fun h => absurd h SessionM.not_failsFrom_pure,
      fun h => absurd h SessionM.not_failsFrom_pure⟩
  | path p | call source head params named =>
    exact ⟨fun h => h.of_bind_pure, fun h => h.bind _⟩

theorem partialFrame_eq (c : PartialCall) :
    r.partialFrame partials f c =
      if c.context.isNone && c.named.isEmpty then pure f
      else r.contextOf partials f c >>= fun v => r.bindings partials f c.named >>= fun named =>
        pure (f.push v [] (Table.ofList named)) := by
  rw [partialFrame, contextOf]
  cases c.context with
  | none => rfl
  | some e => rfl

end Expressions

/-! ## How failures pass outwards -/

/-- **What an activity involves does not fail without it**: an error about templates passes on
unchanged. -/
theorem Involves.fails {m m' : Moment} (h : r.Involves m m') {error : TemplateError}
    (hm : m'.Fails r (.template error)) : m.Fails r (.template error) := by
  cases h with
  | @firstNode l n ns f s =>
    show ((r.rendererOf l).nodes (n :: ns) f).FailsFrom s _
    rw [nodes_cons]
    exact hm.bind _
  | @otherNodes l n ns f s t output h =>
    show ((r.rendererOf l).nodes (n :: ns) f).FailsFrom s _
    rw [nodes_cons]
    exact .after h (hm.bind _)
  | firstFrame => exact hm.bind _
  | otherFrames h => exact .after h (hm.bind _)
  | outputCall h =>
    refine SessionM.FailsFrom.bind ?_ _
    rw [outputValue, if_pos h]
    exact hm
  | outputPath h =>
    refine SessionM.FailsFrom.bind ?_ _
    rw [outputValue, if_neg (by simp [h])]
    exact hm.bind _
  | outputHelper h hv hhelper =>
    refine SessionM.FailsFrom.bind ?_ _
    rw [outputValue, if_neg (by simp [h]), hv]
    refine .after rfl ?_
    rw [hhelper]
    exact hm
  | outputUndefined h hv hhelper =>
    refine SessionM.FailsFrom.bind ?_ _
    rw [outputValue, if_neg (by simp [h]), hv]
    refine .after rfl ?_
    rw [hhelper]
    exact hm.bind _
  | block => exact hm.guarded r _
  | @blockCall l inverted c body inverse position f s h =>
    show (r.insideBlock _ _ _ _ _ _ _).FailsFrom s _
    rw [insideBlock, if_pos h]
    exact hm.bind _
  | @blockPath l inverted c body inverse position f s h =>
    show (r.insideBlock _ _ _ _ _ _ _).FailsFrom s _
    rw [insideBlock, if_neg (by simp [h])]
    exact hm.bind _
  | @blockBranch l inverted c body inverse position f s v h hv =>
    show (r.insideBlock _ _ _ _ _ _ _).FailsFrom s _
    rw [insideBlock, if_neg (by simp [h]), resolve, hv]
    refine .after rfl ?_
    rw [plain_eq]
    exact hm
  | partialName => exact (partialName_failsFrom.2 hm).bind _
  | partialContext hname hcontext =>
    refine .after hname (.bind ?_ _)
    rw [partialFrame_eq, contextOf, hcontext]
    exact hm.bind _
  | @partialBindings l c indent position f s t u name v hname hcontext =>
    refine .after hname (.bind ?_ _)
    rw [partialFrame_eq]
    split
    · next hnone =>
      -- Without bindings there is nothing that could fail.
      rw [Bool.and_eq_true, List.isEmpty_iff] at hnone
      rw [Moment.Fails, hnone.2] at hm
      exact absurd hm SessionM.not_failsFrom_pure
    · refine .after hcontext ?_
      rw [bindings_eq]
      exact (hm.bind _).bind _
  | partialInsertion hname hframe => exact .after hname (.after hframe (hm.bind _))
  | @find l name f s =>
    show ((r.rendererOf l).partialNamed name f).FailsFrom s _
    rw [partialNamed_eq]
    exact hm.bind _
  | @found room chain name f s t h hfound =>
    show ((r.rendererOf _).partialNamed name f).FailsFrom s _
    rw [partialNamed_eq]
    exact .after hfound (hm.guarded r _)
  | @path l p f s =>
    show (r.evaluate _ f (.path p)).FailsFrom s _
    rw [evaluate]
    exact hm
  | @group l source head params named f s =>
    show (r.evaluate _ f _).FailsFrom s _
    rw [evaluate_group]
    exact hm.bind _
  | firstExpr => exact hm.bind _
  | otherExprs h => exact .after h (hm.bind _)
  | dispatch => exact hm.bind _
  | params hvalues hhelper =>
    refine .after hhelper (.bind ?_ _)
    rw [arguments_eq hvalues]
    exact hm
  | named hvalues hhelper hparams =>
    refine .after hhelper (.after hparams (.bind ?_ _))
    rw [namedArguments_eq hvalues, bindings_eq]
    exact hm.bind _
  | script hhelper hparams hnamed => exact .after hhelper (.after hparams (.after hnamed hm))
  | @scriptBranch l site branch e next output s body inverse h =>
    refine SessionM.FailsFrom.bind ?_ _
    rw [CallSite.renderBranch, h]
    dsimp only
    rw [render_ofNodes]
    exact hm.onBehalf _ _
  | scriptPartial => exact (hm.onBehalf _ _).bind _
  | scriptPath h =>
    refine .after ?_ (hm.bind _)
    rw [h]
    rfl
  | @scriptRest l site script rest output output' s t act hstep h =>
    show (script.run r _ site output).FailsFrom s _
    rw [Script.run_of_step hstep]
    exact .after h hm

/-- The second of two moments belongs to what begins at the first one. -/
abbrev Comprises (r : Rendering) : Moment → Moment → Prop :=
  Relation.ReflTransGen r.Involves

/-- **An error about templates passes outwards unchanged**, through any number of activities. -/
theorem Comprises.fails {m m' : Moment} (h : r.Comprises m m') {error : TemplateError}
    (hm : m'.Fails r (.template error)) : m.Fails r (.template error) := by
  induction h using Relation.ReflTransGen.head_induction_on with
  | refl => exact hm
  | head h _ ih => exact h.fails ih

end Rendering

/-! ## The tags of calls -/

/-- The name and the place that a call is made with, for what is part of a call. -/
def Activity.callee? : Activity → Option (Text × Position)
  | .inside _ _ c _ _ position _ => some (c.head.source, position)
  | .call _ c position _ _ => some (c.head.source, position)
  | .script _ site _ _ => some (site.name, site.position)
  | _ => none

/-- The name and the place of a tag, and no place for a call in parentheses. -/
def Activity.tag? : Activity → Option (Text × Position)
  | .node _ (.output _ c position) _ => some (c.head.source, position)
  | .node _ (.block _ c _ _ position) _ => some (c.head.source, position)
  | .expr _ (.call _ head _ _) _ => some (head.source, .none)
  | _ => none

/-- The script of a helper that is called at this place stops, for this reason. -/
def Activity.Stops (site : CallSite) (why : Raised) (a : Activity) : Prop :=
  ∃ l output, a = .script l site (.stop why) output

namespace Rendering

variable {r : Rendering}

/-- The first of two moments leads to the second one through nothing but the call of this name at
this place. -/
def Makes (r : Rendering) (callee : Text × Position) : Moment → Moment → Prop :=
  Relation.ReflTransGen fun m m' => r.Involves m m' ∧ m'.activity.callee? = some callee

/-- A moment that is part of a call belongs to the call, or to the tag that makes it. -/
theorem Involves.callee? {m m' : Moment} (h : r.Involves m m') {callee : Text × Position}
    (hm : m'.activity.callee? = some callee) :
    m.activity.callee? = some callee ∨ m.activity.tag? = some callee := by
  cases h with
  | outputCall | outputHelper | block | group => exact .inr hm
  | blockCall | script | scriptRest => exact .inl hm
  | _ => exact absurd hm nofun

/-- **Whatever is part of a call has been begun by the tag of the call**, with nothing but the call
on the way from there. -/
theorem Comprises.exists_tag {m m' : Moment} (h : r.Comprises m m')
    (hm : m.activity.callee? = none) {callee : Text × Position}
    (hm' : m'.activity.callee? = some callee) :
    ∃ tag, r.Comprises m tag ∧ tag.activity.tag? = some callee ∧ r.Makes callee tag m' := by
  induction h with
  | refl => exact absurd (hm.symm.trans hm') nofun
  | @tail a b hma hab ih =>
    rcases hab.callee? hm' with hcallee | htag
    · obtain ⟨tag, htag, htag', hcall⟩ := ih hcallee
      exact ⟨tag, htag, htag', hcall.tail ⟨hab, hm'⟩⟩
    · exact ⟨a, hma, htag, .single ⟨hab, hm'⟩⟩

end Rendering

end Stencil
