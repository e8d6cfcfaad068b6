import Stencil.Proofs.Rendering.Comparison

/-!
# How a rendering may fail

Whatever a rendering does is done by a tag, and a tag does two kinds of things.  Some it does
itself, as resolving a path or calling a helper; how these fail is bounded by some set of failures,
the same for all tags.  The others it does by entering a section or a partial, one level deeper.  So
the failures of a rendering are generated by what fails at some level, by what entering one level
too many fails with, and by what becomes of a failure on the way out (`Rendering.MayFail`).

`Rendering.Upholds.level` says that there is no other way to fail, and that meanwhile an invariant
of the session is kept.  The walk goes over the script of a helper, over expressions, over nodes and
over the levels of nesting that are left; up to the nodes it needs no more of the failures than that
they include what a tag fails with itself.
-/

set_option autoImplicit false

namespace Stencil

variable {invariant : Session → Prop} {fails : Failure → Prop}

/-! ## Operations that keep an invariant and fail in some ways only -/

namespace SessionM

variable {α β : Type}

/-- An operation keeps an invariant of the session, its results are of some kind, and so are its
failures. -/
def Ensures (invariant : Session → Prop) (result : α → Prop) (fails : Failure → Prop)
    (x : SessionM α) : Prop :=
  ∀ s : Session, invariant s →
    match x.run s with
    | .ok a t => invariant t ∧ result a
    | .error e t => invariant t ∧ fails e

/-- An operation keeps an invariant of the session and fails in some ways only. -/
abbrev FailsOnly (invariant : Session → Prop) (fails : Failure → Prop) (x : SessionM α) : Prop :=
  x.Ensures invariant (fun _ => True) fails

namespace Ensures

variable {result : α → Prop} {x : SessionM α}

theorem pure {a : α} (h : result a) : Ensures invariant result fails (Pure.pure a) :=
  fun _ hs => ⟨hs, h⟩

theorem throw {e : Failure} (h : fails e) :
    Ensures invariant result fails (MonadExcept.throw e) :=
  fun _ hs => ⟨hs, h⟩

theorem ofExcept {r : Except TemplateError α} (h : ∀ e, r = .error e → fails (.template e)) :
    (SessionM.ofExcept r).FailsOnly invariant fails := by
  cases r with
  | ok a => exact pure trivial
  | error e => exact throw (h e rfl)

theorem bind (hx : x.Ensures invariant result fails) {after : β → Prop} {f : α → SessionM β}
    (hf : ∀ a, result a → (f a).Ensures invariant after fails) :
    (x >>= f).Ensures invariant after fails := by
  intro s hs
  have hrun := hx s hs
  rw [EStateM.run_bind]
  generalize x.run s = outcome at hrun
  cases outcome with
  | ok a t => exact hf a hrun.2 t hrun.1
  | error e t => exact hrun

/-- What is done whatever came before. -/
theorem andThen (hx : x.FailsOnly invariant fails) {after : β → Prop} {f : α → SessionM β}
    (hf : ∀ a, (f a).Ensures invariant after fails) : (x >>= f).Ensures invariant after fails :=
  hx.bind fun a _ => hf a

theorem mono (hx : x.Ensures invariant result fails) {others : Failure → Prop}
    (h : ∀ e, fails e → others e) : x.Ensures invariant result others := by
  intro s hs
  have hrun := hx s hs
  generalize x.run s = outcome at hrun ⊢
  cases outcome with
  | ok a t => exact hrun
  | error e t => exact ⟨hrun.1, h e hrun.2⟩

theorem record {events : List Event}
    (h : ∀ s : Session, invariant s → invariant { s with log := events.reverse ++ s.log }) :
    (SessionM.record events).FailsOnly invariant fails :=
  fun s hs => ⟨h s hs, trivial⟩

/-- Putting outputs together fails as one of them does. -/
theorem concat {output : α → SessionM Text} {as : List α}
    (h : ∀ a ∈ as, (output a).FailsOnly invariant fails) :
    (SessionM.concat output as).FailsOnly invariant fails := by
  induction as with
  | nil => exact pure trivial
  | cons a as ih =>
    have hrest := ih fun b hb => h b (List.mem_cons_of_mem a hb)
    exact (h a List.mem_cons_self).andThen fun _ => hrest.andThen fun _ => pure trivial

/-- On behalf of a helper, something fails as it does, or the helper has failed. -/
theorem onBehalf (hx : x.Ensures invariant result fails) {name : Text} {position : Position}
    (h : ∀ kind reason, fails (.template (.helperFailed name kind reason position))) :
    (x.onBehalf name position).Ensures invariant result fails := by
  intro s hs
  have hrun := hx s hs
  rw [SessionM.run_onBehalf]
  generalize x.run s = outcome at hrun ⊢
  cases outcome with
  | ok a t => exact hrun
  | error e t =>
    refine ⟨hrun.1, ?_⟩
    cases e with
    | foreign e => exact h _ _
    | _ => exact hrun.2

theorem keeps (hx : x.Ensures invariant result fails) : x.Keeps invariant result := by
  intro s hs
  have hrun := hx s hs
  generalize x.run s = outcome at hrun ⊢
  cases outcome with
  | ok a t => exact hrun
  | error e t => exact hrun.1

end Ensures

theorem Keeps.ensures {result : α → Prop} {x : SessionM α} (hx : x.Keeps invariant result) :
    x.Ensures invariant result fun _ => True := by
  intro s hs
  have hrun := hx s hs
  generalize x.run s = outcome at hrun ⊢
  cases outcome with
  | ok a t => exact hrun
  | error e t => exact ⟨hrun, trivial⟩

end SessionM

open SessionM (Ensures)

/-! ## What helpers may do -/

/-- A script inserts some partials only, and stops for some reasons only. -/
inductive Script.Within (inserts : Text → Prop) (stops : Raised → Prop) {α : Type} :
    Script α → Prop
  /-- It answers. -/
  | done (answer : α) : Within inserts stops (.done answer)
  /-- It stops for one of the reasons. -/
  | stop {why : Raised} (h : stops why) : Within inserts stops (.stop why)
  /-- It renders a branch. -/
  | render (branch : Branch) (e : Entering) {next : Text → Script α}
      (h : ∀ t, Within inserts stops (next t)) : Within inserts stops (.render branch e next)
  /-- It inserts one of the partials. -/
  | partialNamed {name : Text} (hname : inserts name) (context : Option Value)
      {next : Text → Script α} (h : ∀ t, Within inserts stops (next t)) :
      Within inserts stops (.partialNamed name context next)
  /-- It resolves a path. -/
  | resolve (path : Text) {next : Value → Script α} (h : ∀ v, Within inserts stops (next v)) :
      Within inserts stops (.resolve path next)
  /-- It looks up a variable. -/
  | readVariable (name : Text) {next : Value → Script α}
      (h : ∀ v, Within inserts stops (next v)) : Within inserts stops (.readVariable name next)
  /-- It makes a stream. -/
  | newStream (items : List Value) {next : Value → Script α}
      (h : ∀ v, Within inserts stops (next v)) : Within inserts stops (.newStream items next)
  /-- It reads a stream. -/
  | read (serial : Nat) (items : List Value) (count : Nat) {next : List Value → Script α}
      (h : ∀ vs, Within inserts stops (next vs)) :
      Within inserts stops (.read serial items count next)
  /-- It writes output. -/
  | write (output : Text) {next : Script α} (h : Within inserts stops next) :
      Within inserts stops (.write output next)
  /-- It asks what has been written. -/
  | written {next : Text → Script α} (h : ∀ t, Within inserts stops (next t)) :
      Within inserts stops (.written next)
  /-- It logs a message. -/
  | log (level : LogLevel) (message : Text) {next : Script α} (h : Within inserts stops next) :
      Within inserts stops (.log level message next)

/-- Every script inserts some partials, and stops for some reasons. -/
theorem Script.within_true {α : Type} (s : Script α) :
    s.Within (fun _ => True) (fun _ => True) := by
  induction s with
  | done answer => exact .done answer
  | stop why => exact .stop trivial
  | render branch e next ih => exact .render branch e ih
  | partialNamed name context next ih => exact .partialNamed trivial context ih
  | resolve path next ih => exact .resolve path ih
  | readVariable name next ih => exact .readVariable name ih
  | newStream items next ih => exact .newStream items ih
  | read serial items count next ih => exact .read serial items count ih
  | write output next ih => exact .write output ih
  | written next ih => exact .written ih
  | log level message next ih => exact .log level message ih

/-- Going on within the same bounds. -/
theorem Script.Within.bind {inserts : Text → Prop} {stops : Raised → Prop} {α β : Type}
    {s : Script α} (hs : s.Within inserts stops) {f : α → Script β}
    (hf : ∀ a, (f a).Within inserts stops) : (s.bind f).Within inserts stops := by
  induction hs with
  | done answer => exact hf answer
  | stop h => exact .stop h
  | render branch e h ih => exact .render branch e ih
  | partialNamed hname context h ih => exact .partialNamed hname context ih
  | resolve path h ih => exact .resolve path ih
  | readVariable name h ih => exact .readVariable name ih
  | newStream items h ih => exact .newStream items ih
  | read serial items count h ih => exact .read serial items count ih
  | write output h ih => exact .write output ih
  | written h ih => exact .written ih
  | log level message h ih => exact .log level message ih

theorem Script.Within.mono {inserts : Text → Prop} {stops reasons : Raised → Prop} {α : Type}
    {s : Script α} (hs : s.Within inserts stops) (h : ∀ why, stops why → reasons why) :
    s.Within inserts reasons := by
  induction hs with
  | done answer => exact .done answer
  | stop hwhy => exact .stop (h _ hwhy)
  | render branch e _ ih => exact .render branch e ih
  | partialNamed hname context _ ih => exact .partialNamed hname context ih
  | resolve path _ ih => exact .resolve path ih
  | readVariable name _ ih => exact .readVariable name ih
  | newStream items _ ih => exact .newStream items ih
  | read serial items count _ ih => exact .read serial items count ih
  | write output _ ih => exact .write output ih
  | written _ ih => exact .written ih
  | log level message _ ih => exact .log level message ih

/-! ## What tags do themselves -/

/-- Whether an error reports that the levels of nesting are too many. -/
def TemplateError.isRecursionLimit : TemplateError → Bool
  | .recursionLimit _ _ => true
  | _ => false

/-- Whether an error is one of a path. -/
def TemplateError.isOfPath : TemplateError → Bool
  | .undefinedVariable _ _ | .pastRoot _ _ => true
  | _ => false

/-- What has not been found at the end of a path is reported. -/
theorem Frame.isOfPath_found {p : Path} {strict : Bool} {segment : Text} {v : Value}
    {e : TemplateError} (h : found p strict segment v = .error e) : e.isOfPath = true := by
  rw [found] at h
  split at h
  · obtain rfl := Except.error.inj h
    rfl
  · exact absurd h (by simp)

theorem Frame.isOfPath_follow {p : Path} {strict : Bool} {v : Value} {segments : List Text}
    {e : TemplateError} (h : follow p strict v segments = .error e) : e.isOfPath = true := by
  induction segments generalizing v with
  | nil => exact absurd h (by simp [follow])
  | cons segment rest ih =>
    rw [follow] at h
    split at h
    · next he =>
      obtain rfl := Except.error.inj h
      exact isOfPath_found he
    · exact ih h

/-- **A path leads nowhere, or past the root**; there are no other ways to fail. -/
theorem Frame.isOfPath_resolve {f : Frame} {p : Path} {strict : Bool} {e : TemplateError}
    (h : f.resolve p strict = .error e) : e.isOfPath = true := by
  rw [resolve] at h
  split at h
  · obtain rfl := Except.error.inj h
    rfl
  · split at h
    · exact absurd h (by simp)
    · split at h
      · next he =>
        obtain rfl := Except.error.inj h
        exact isOfPath_found he
      · exact isOfPath_follow h

theorem Frame.isRecursionLimit_resolve {f : Frame} {p : Path} {strict : Bool} {e : TemplateError}
    (h : f.resolve p strict = .error e) : e.isRecursionLimit = false := by
  have hpath := isOfPath_resolve h
  cases e with
  | recursionLimit limit chain => exact absurd hpath (by simp [TemplateError.isOfPath])
  | _ => rfl

/-- Whether an event is logged when a source is compiled, or found in the cache. -/
def Event.isOfCompiling (e : Event) : Bool :=
  match e.source with
  | .scanner | .tree | .compiler | .engine => true
  | .partials | .loader | .renderer | .helpers | .template => false

/-- Whether a helper is registered under some name. -/
def Rendering.Registers (r : Rendering) (helper : Helper) : Prop :=
  ∃ name, Table.get? r.env.helpers name = some helper

theorem Rendering.registers_of_helperNamed? {r : Rendering} {p : Path} {helper : Helper}
    (h : r.helperNamed? p = some helper) : r.Registers helper := by
  rw [Rendering.helperNamed?] at h
  split at h
  · exact ⟨_, h⟩
  · exact absurd h (by simp)

/-- A rendering keeps an invariant and bounds the failures of what tags do themselves, the partials
that helpers insert, and what is found under the name of a partial. -/
structure Rendering.Upholds (invariant : Session → Prop) (fails : Failure → Prop)
    (inserts : Text → Prop) (found : Text → List Node → Prop) (r : Rendering) : Prop where
  /-- What is logged does not break the invariant, if it has nothing to do with compiling. -/
  record : ∀ (s : Session) (events : List Event), (∀ e ∈ events, e.isOfCompiling = false) →
    invariant s → invariant { s with log := events.reverse ++ s.log }
  /-- Neither do the streams that are made and read. -/
  streams : ∀ (s : Session) (nextStream : Nat) (itemsRead : List (Nat × Nat)), invariant s →
    invariant { s with nextStream, itemsRead }
  /-- Errors that do not report too many levels are among the failures. -/
  errors : ∀ e : TemplateError, e.isRecursionLimit = false → fails (.template e)
  /-- So is what helpers stop for, and they insert partials within the bounds. -/
  helpers : ∀ helper, r.Registers helper → ∀ i : Invocation,
    (helper.handle i).Within inserts fun why => ∀ name position, fails (why.toFailure name position)
  /-- So is what looking up a partial fails with, and what is found is within the bounds. -/
  partialNamed : ∀ name, (r.env.partialNamed name).Ensures invariant
    (fun h => found name h.template.nodes) fails

/-- The partials of some names are rendered with some failures only. -/
def PartialRenderer.FailsOnly (invariant : Session → Prop) (fails : Failure → Prop)
    (inserts : Text → Prop) (partials : PartialRenderer) : Prop :=
  ∀ name, inserts name → ∀ f, (partials name f).FailsOnly invariant fails

/-- The branches of a call are rendered with some failures only. -/
def CallSite.FailsOnly (invariant : Session → Prop) (fails : Failure → Prop) (site : CallSite) :
    Prop :=
  ∀ branch e, (site.renderBranch branch e).FailsOnly invariant fails

theorem CallSite.failsOnly_of_none (name : Text) (position : Position) (f : Frame) :
    CallSite.FailsOnly invariant fails ⟨name, position, f, none⟩ :=
  fun _ _ => .pure trivial

theorem CallSite.failsOnly_ofNodes {nodes : List Node → Frame → SessionM Text}
    {body inverse : Option (List Node)}
    (hbody : ∀ f, (nodes (body.getD []) f).FailsOnly invariant fails)
    (hinverse : ∀ f, (nodes (inverse.getD []) f).FailsOnly invariant fails) (name : Text)
    (position : Position) (f : Frame) :
    CallSite.FailsOnly invariant fails ⟨name, position, f, some (.ofNodes nodes body inverse)⟩ := by
  intro branch e
  cases branch with
  | body => exact hbody _
  | inverse => exact hinverse _

/-! ### Sections without a helper -/

/-- A section by the value of its path renders one of its branches, any number of times. -/
theorem Rendering.plainSection_failsOnly {inner : Renderer} {f : Frame}
    {body inverse : List Node}
    (hbody : ∀ f, (inner.nodes body f).FailsOnly invariant fails)
    (hinverse : ∀ f, (inner.nodes inverse f).FailsOnly invariant fails) (v : Value) :
    (plainSection inner f body inverse v).FailsOnly invariant fails := by
  unfold plainSection
  split
  · exact hinverse _
  · exact .concat fun _ _ => hbody _
  · split
    · exact hbody _
    · split
      · exact hbody _
      · exact hinverse _

theorem Rendering.plainInverted_failsOnly {inner : Renderer} {f : Frame}
    {body inverse : List Node}
    (hbody : ∀ f, (inner.nodes body f).FailsOnly invariant fails)
    (hinverse : ∀ f, (inner.nodes inverse f).FailsOnly invariant fails) (v : Value) :
    (plainInverted inner f body inverse v).FailsOnly invariant fails := by
  rw [plainInverted]
  split
  · exact hinverse _
  · exact hbody _

namespace Rendering.Upholds

variable {inserts : Text → Prop} {found : Text → List Node → Prop} {r : Rendering}
  {partials : PartialRenderer}

theorem mono (hr : r.Upholds invariant fails inserts found) {others : Failure → Prop}
    (h : ∀ e, fails e → others e) : r.Upholds invariant others inserts found where
  record := hr.record
  streams := hr.streams
  errors e he := h _ (hr.errors e he)
  helpers helper hregisters i :=
    (hr.helpers helper hregisters i).mono fun _ hwhy name position => h _ (hwhy name position)
  partialNamed name := (hr.partialNamed name).mono h

theorem record_failsOnly (hr : r.Upholds invariant fails inserts found) {e : Event}
    (he : e.isOfCompiling = false) : (SessionM.record [e]).FailsOnly invariant fails :=
  .record fun s hs => hr.record s [e] (by simpa using he) hs

theorem resolve (hr : r.Upholds invariant fails inserts found) (f : Frame) (p : Path) :
    (r.resolve f p).FailsOnly invariant fails :=
  .ofExcept fun e he => hr.errors e (Frame.isRecursionLimit_resolve he)

/-! ### Helpers -/

/-- **Serving a script** that is within the bounds fails as its requests do. -/
theorem script (hr : r.Upholds invariant fails inserts found)
    (hp : partials.FailsOnly invariant fails inserts) {site : CallSite}
    (hsite : site.FailsOnly invariant fails) {α : Type} {s : Script α}
    (hs : s.Within inserts fun why => ∀ name position, fails (why.toFailure name position))
    (output : Text) : (s.run r partials site output).FailsOnly invariant fails := by
  have hfailed : ∀ kind reason,
      fails (.template (.helperFailed site.name kind reason site.position)) :=
    fun _ _ => hr.errors _ rfl
  induction hs generalizing output with
  | done answer => exact .pure trivial
  | stop h => exact .throw (h _ _)
  | render branch e h ih => exact ((hsite branch e).onBehalf hfailed).andThen fun t => ih t output
  | partialNamed hname context h ih =>
    exact ((hp _ hname _).onBehalf hfailed).andThen fun t => ih t output
  | resolve path h ih =>
    have hparse : (SessionM.ofExcept ((Path.parse path).mapError fun fault =>
        .malformed fault .none)).FailsOnly invariant fails := by
      refine .ofExcept fun e he => hr.errors e ?_
      cases hpath : Path.parse path with
      | ok p => rw [hpath] at he; exact absurd he (by simp [Except.mapError])
      | error fault => rw [hpath] at he; obtain rfl := Except.error.inj he; rfl
    exact hparse.andThen fun p => (hr.resolve _ p).andThen fun v => ih v output
  | readVariable name h ih => exact ih _ output
  | newStream items h ih =>
    have hstream : (SessionM.newStream items).FailsOnly invariant fails := fun s hs =>
      ⟨hr.streams s _ s.itemsRead hs, trivial⟩
    exact hstream.andThen fun v => ih v output
  | read serial items count h ih =>
    have hread : (SessionM.read serial items count).FailsOnly invariant fails := fun s hs =>
      ⟨hr.streams s s.nextStream _ hs, trivial⟩
    exact hread.andThen fun vs => ih vs output
  | write text h ih => exact ih _
  | written h ih => exact ih _ output
  | log level message h ih => exact (hr.record_failsOnly rfl).andThen fun _ => ih output

theorem call (hr : r.Upholds invariant fails inserts found)
    (hp : partials.FailsOnly invariant fails inserts) {site : CallSite}
    (hsite : site.FailsOnly invariant fails) {helper : Helper} (hhelper : r.Registers helper)
    (params : List Value) (named : Table Value) :
    (r.call partials site helper params named).FailsOnly invariant fails :=
  hr.script hp hsite (hr.helpers helper hhelper _) []

theorem helperFor (hr : r.Upholds invariant fails inserts found) (p : Path) (position : Position) :
    (r.helperFor p position).Ensures invariant r.Registers fails := by
  rw [Rendering.helperFor]
  split
  · next hnamed => exact .pure (registers_of_helperNamed? hnamed)
  · split
    · next hfallback => exact (hr.record_failsOnly rfl).andThen fun _ => .pure ⟨_, hfallback⟩
    · exact .throw (hr.errors _ rfl)

/-! ### Expressions -/

mutual

theorem evaluate (hr : r.Upholds invariant fails inserts found)
    (hp : partials.FailsOnly invariant fails inserts) (f : Frame) :
    ∀ e : Expr, (r.evaluate partials f e).FailsOnly invariant fails
  | .path p => by
    rw [Rendering.evaluate]
    exact hr.resolve f p
  | .literal source literal => by
    rw [Rendering.evaluate]
    exact .pure trivial
  | .call source head params named => by
    have hparams := hr.arguments hp f params
    have hnamed := hr.namedArguments hp f named
    have hsite : CallSite.FailsOnly invariant fails ⟨head.source, .none, f, none⟩ :=
      CallSite.failsOnly_of_none _ _ _
    rw [Rendering.evaluate]
    refine (hr.helperFor head .none).bind fun helper hhelper => ?_
    refine hparams.andThen fun params => hnamed.andThen fun named => ?_
    exact (hr.call hp hsite hhelper params _).andThen fun _ => .pure trivial

theorem arguments (hr : r.Upholds invariant fails inserts found)
    (hp : partials.FailsOnly invariant fails inserts) (f : Frame) :
    ∀ es : List Expr, (r.arguments partials f es).FailsOnly invariant fails
  | [] => by
    rw [Rendering.arguments]
    exact .pure trivial
  | e :: es => by
    have hvalue := hr.evaluate hp f e
    have hrest := hr.arguments hp f es
    rw [Rendering.arguments]
    split
    · exact hrest.andThen fun _ => .pure trivial
    · exact hvalue.andThen fun _ => hrest.andThen fun _ => .pure trivial

theorem namedArguments (hr : r.Upholds invariant fails inserts found)
    (hp : partials.FailsOnly invariant fails inserts) (f : Frame) :
    ∀ es : List (Text × Expr), (r.namedArguments partials f es).FailsOnly invariant fails
  | [] => by
    rw [Rendering.namedArguments]
    exact .pure trivial
  | (name, e) :: es => by
    have hvalue := hr.evaluate hp f e
    have hrest := hr.namedArguments hp f es
    rw [Rendering.namedArguments]
    split
    · exact hrest.andThen fun _ => .pure trivial
    · exact hvalue.andThen fun _ => hrest.andThen fun _ => .pure trivial

end

theorem callAt (hr : r.Upholds invariant fails inserts found)
    (hp : partials.FailsOnly invariant fails inserts) (f : Frame) (c : Call) (position : Position)
    {branches : Option Branches}
    (hsite : CallSite.FailsOnly invariant fails ⟨c.head.source, position, f, branches⟩) :
    (r.callAt partials f c position branches).FailsOnly invariant fails := by
  rw [Rendering.callAt]
  refine (hr.helperFor c.head position).bind fun helper hhelper => ?_
  refine (hr.arguments hp f c.params).andThen fun params => ?_
  exact (hr.namedArguments hp f c.named).andThen fun named => hr.call hp hsite hhelper params _

theorem bindings (hr : r.Upholds invariant fails inserts found)
    (hp : partials.FailsOnly invariant fails inserts) (f : Frame) (es : List (Text × Expr)) :
    (r.bindings partials f es).FailsOnly invariant fails := by
  induction es with
  | nil => exact .pure trivial
  | cons entry es ih =>
    exact (hr.evaluate hp f entry.2).andThen fun _ => ih.andThen fun _ => .pure trivial

/-! ### Tags -/

theorem outputValue (hr : r.Upholds invariant fails inserts found)
    (hp : partials.FailsOnly invariant fails inserts) (f : Frame) (c : Call)
    (position : Position) : (r.outputValue partials f c position).FailsOnly invariant fails := by
  have hsite : CallSite.FailsOnly invariant fails ⟨c.head.source, position, f, none⟩ :=
    CallSite.failsOnly_of_none _ _ _
  rw [Rendering.outputValue]
  split
  · exact hr.callAt hp f c position hsite
  · have hresolve : (SessionM.ofExcept (f.resolve c.head false)).FailsOnly invariant fails :=
      .ofExcept fun e he => hr.errors e (Frame.isRecursionLimit_resolve he)
    refine hresolve.andThen fun v => ?_
    split
    · split
      · next hnamed => exact hr.call hp hsite (registers_of_helperNamed? hnamed) [] []
      · exact (hr.resolve f c.head).andThen fun _ => .pure trivial
    · exact .pure trivial

/-- The name that comes out is one that the tag may insert. -/
theorem partialName (hr : r.Upholds invariant fails inserts found)
    (hp : partials.FailsOnly invariant fails inserts) (f : Frame) (c : PartialCall) :
    (r.partialName partials f c.name).Ensures invariant c.MayInsert fails := by
  have hvalue := hr.evaluate hp f c.name
  have hcomputed (h : c.literalName? = none) (name : Text) : c.MayInsert name := fun literal hl =>
    absurd (h.symm.trans hl) (by simp)
  obtain ⟨e, context, named⟩ := c
  cases e with
  | literal source literal =>
    refine .pure ?_
    rintro name hname
    exact Option.some.inj hname
  | path p => exact hvalue.andThen fun v => .pure (hcomputed rfl _)
  | call source head params named => exact hvalue.andThen fun v => .pure (hcomputed rfl _)

theorem partialFrame (hr : r.Upholds invariant fails inserts found)
    (hp : partials.FailsOnly invariant fails inserts) (f : Frame) (c : PartialCall) :
    (r.partialFrame partials f c).FailsOnly invariant fails := by
  have hbindings := hr.bindings hp f c.named
  rw [Rendering.partialFrame]
  split
  · exact .pure trivial
  · split
    · exact (hr.evaluate hp f _).andThen fun _ => hbindings.andThen fun _ => .pure trivial
    · exact hbindings.andThen fun _ => .pure trivial

/-! ### Sections -/

/-- Inside a section, what fails is its call or one of its branches. -/
theorem insideBlock (hr : r.Upholds invariant fails inserts found) {inner : Renderer}
    (hp : inner.partialNamed.FailsOnly invariant fails inserts) {body : List Node}
    {inverse : Option (List Node)}
    (hbody : ∀ f, (inner.nodes body f).FailsOnly invariant fails)
    (hinverse : ∀ f, (inner.nodes (inverse.getD []) f).FailsOnly invariant fails) (f : Frame)
    (inverted : Bool) (c : Call) (position : Position) :
    (r.insideBlock inner f inverted c body inverse position).FailsOnly invariant fails := by
  have hgiven : ∀ f, (inner.nodes ((some body).getD []) f).FailsOnly invariant fails := hbody
  rw [Rendering.insideBlock]
  split
  · refine Ensures.andThen ?_ fun _ => .pure trivial
    refine hr.callAt hp f c position ?_
    cases inverted with
    | true => exact CallSite.failsOnly_ofNodes hinverse hgiven _ _ _
    | false => exact CallSite.failsOnly_ofNodes hgiven hinverse _ _ _
  · refine (hr.resolve f c.head).andThen fun v => ?_
    cases inverted with
    | true => exact plainInverted_failsOnly hbody hinverse v
    | false => exact plainSection_failsOnly hbody hinverse v

end Rendering.Upholds

/-! ## Levels of nesting -/

/-- The level of a section with a call. -/
def Label.ofSection (inverted : Bool) (c : Call) : Label :=
  if inverted then .inverted c.head.source else .block c.head.source

/-- What may be entered from among some nodes: the branches of a section, and what is found under a
name that a partial tag may insert or that a helper inserts. -/
inductive Node.Opens (inserts : Text → Prop) (found : Text → List Node → Prop)
    (nodes : List Node) : Label → List Node → Prop
  /-- The body of a section. -/
  | body {inverted : Bool} {c : Call} {body : List Node} {inverse : Option (List Node)}
      {position : Position} (h : .block inverted c body inverse position ∈ nodes) :
      Opens inserts found nodes (.ofSection inverted c) body
  /-- The other branch of a section. -/
  | inverse {inverted : Bool} {c : Call} {body : List Node} {inverse : Option (List Node)}
      {position : Position} (h : .block inverted c body inverse position ∈ nodes) :
      Opens inserts found nodes (.ofSection inverted c) (inverse.getD [])
  /-- What a partial tag inserts. -/
  | partialTag {c : PartialCall} {indent : Text} {position : Position} {name : Text}
      {inside : List Node} (h : .partialTag c indent position ∈ nodes) (hname : c.MayInsert name)
      (hfound : found name inside) : Opens inserts found nodes (.partialNamed name) inside
  /-- What a helper inserts. -/
  | helper {name : Text} {inside : List Node} (hname : inserts name) (hfound : found name inside) :
      Opens inserts found nodes (.partialNamed name) inside

/-- How rendering some nodes may fail, when `room` more levels may be entered inside a chain of
levels. -/
inductive Rendering.MayFail (r : Rendering) (own : Failure → Prop)
    (opens : List Node → Label → List Node → Prop) :
    (room : Nat) → (chain : List Label) → List Node → Failure → Prop
  /-- As a tag itself does. -/
  | own {room : Nat} {chain : List Label} {nodes : List Node} {e : Failure} (h : own e) :
      MayFail r own opens room chain nodes e
  /-- By entering one level too many. -/
  | tooDeep {chain : List Label} {nodes inside : List Node} {label : Label}
      (h : opens nodes label inside) :
      MayFail r own opens 0 chain nodes (r.tooDeep (label :: chain))
  /-- As what is inside the next level does. -/
  | inside {room : Nat} {chain : List Label} {nodes inside : List Node} {label : Label}
      {e : Failure} (h : opens nodes label inside)
      (he : MayFail r own opens room (label :: chain) inside e)
      (hroom : ∀ reason, e ≠ .exhausted reason) : MayFail r own opens (room + 1) chain nodes e
  /-- As going too deep does, if a helper finds no room inside the next level. -/
  | guarded {room : Nat} {chain : List Label} {nodes inside : List Node} {label : Label}
      {reason : Text} (h : opens nodes label inside)
      (he : MayFail r own opens room (label :: chain) inside (.exhausted reason)) :
      MayFail r own opens (room + 1) chain nodes (r.tooDeep (label :: chain))

namespace Rendering

variable {own : Failure → Prop} {inserts : Text → Prop} {found : Text → List Node → Prop}
  {r : Rendering} {room : Nat} {chain : List Label}

section Level

variable (invariant own inserts found r room chain)

/-- The failures of rendering some nodes. -/
abbrev Fails (nodes : List Node) : Failure → Prop :=
  r.MayFail own (Node.Opens inserts found) room chain nodes

/-- A renderer fails as is foreseen for its level, and keeps the invariant. -/
structure IsLevel (renderer : Renderer) : Prop where
  /-- Nodes fail so. -/
  nodes : ∀ nodes f, (renderer.nodes nodes f).FailsOnly invariant
    (r.Fails own inserts found room chain nodes)
  /-- Partials that are inserted among some nodes do. -/
  partialNamed : ∀ nodes name f,
    (∀ inside, found name inside → Node.Opens inserts found nodes (.partialNamed name) inside) →
    (renderer.partialNamed name f).FailsOnly invariant (r.Fails own inserts found room chain nodes)

/-- The failures of what is inside the next level. -/
def FailsInside (nodes : List Node) (label : Label) (e : Failure) : Prop :=
  ∃ inside, Node.Opens inserts found nodes label inside ∧
    r.Fails own inserts found room (label :: chain) inside e

/-- The next level is entered with failures that are foreseen for the level where this is done. -/
def IsEntrance (enter : Entrance) : Prop :=
  ∀ (nodes : List Node) (label : Label) (act : Renderer → SessionM Text),
    (∃ inside, Node.Opens inserts found nodes label inside) →
    (∀ less inner, room = less + 1 →
      r.IsLevel invariant own inserts found less (label :: chain) inner →
      (act inner).FailsOnly invariant (r.FailsInside own inserts found less chain nodes label)) →
    (enter label act).FailsOnly invariant (r.Fails own inserts found room chain nodes)

end Level

/-- Inside a section, everything fails as its branches do. -/
theorem IsLevel.insideBlock (hr : r.Upholds invariant own inserts found) {inner : Renderer}
    {nodes : List Node} {inverted : Bool} {c : Call} {body : List Node}
    {inverse : Option (List Node)} {position : Position}
    (hblock : .block inverted c body inverse position ∈ nodes)
    (hinner : r.IsLevel invariant own inserts found room (.ofSection inverted c :: chain) inner)
    (f : Frame) :
    (r.insideBlock inner f inverted c body inverse position).FailsOnly invariant
      (r.FailsInside own inserts found room chain nodes (.ofSection inverted c)) := by
  have hopens : Node.Opens inserts found nodes (.ofSection inverted c) body := .body hblock
  have hown : r.Upholds invariant
      (r.FailsInside own inserts found room chain nodes (.ofSection inverted c)) inserts found :=
    hr.mono fun e he => ⟨body, hopens, .own he⟩
  refine hown.insideBlock (fun name hname f => ?_) (fun f => ?_) (fun f => ?_) f inverted c position
  · refine (hinner.partialNamed body name f fun inside => .helper hname).mono ?_
    exact fun e he => ⟨body, hopens, he⟩
  · exact (hinner.nodes body f).mono fun e he => ⟨body, hopens, he⟩
  · exact (hinner.nodes _ f).mono fun e he => ⟨_, .inverse hblock, he⟩

/-- **A node fails as is foreseen for its level.** -/
theorem IsEntrance.node (hr : r.Upholds invariant own inserts found) {enter : Entrance}
    (henter : r.IsEntrance invariant own inserts found room chain enter)
    {partials : PartialRenderer} {nodes : List Node}
    (hp : ∀ name f,
      (∀ inside, found name inside → Node.Opens inserts found nodes (.partialNamed name) inside) →
      (partials name f).FailsOnly invariant (r.Fails own inserts found room chain nodes))
    (f : Frame) {n : Node} (hn : n ∈ nodes) :
    (r.node partials enter f n).FailsOnly invariant
      (r.Fails own inserts found room chain nodes) := by
  have hown : r.Upholds invariant (r.Fails own inserts found room chain nodes) inserts found :=
    hr.mono fun e he => .own he
  have hhelpers : partials.FailsOnly invariant (r.Fails own inserts found room chain nodes)
      inserts := fun name hname f => hp name f fun inside => .helper hname
  cases n with
  | text t => exact .pure trivial
  | comment content => exact .pure trivial
  | output escaped c position =>
    exact (hown.outputValue hhelpers f c position).andThen fun _ => .pure trivial
  | block inverted c body inverse position =>
    exact henter nodes _ _ ⟨body, .body hn⟩ fun less inner _ hinner =>
      hinner.insideBlock hr hn f
  | partialTag c indent position =>
    refine (hown.partialName hhelpers f c).bind fun name hname => ?_
    refine (hown.partialFrame hhelpers f c).andThen fun f => ?_
    exact (hp name f fun inside => .partialTag hn hname).andThen fun _ => .pure trivial

/-- **A partial fails as is foreseen for its level**, if what is found under its name is. -/
theorem IsEntrance.partialNamed {enter : Entrance}
    (henter : r.IsEntrance invariant own inserts found room chain enter) {name : Text}
    {find : SessionM Handle}
    (hfind : find.Ensures invariant (fun h => found name h.template.nodes) own) {nodes : List Node}
    (hopens : ∀ inside, found name inside →
      Node.Opens inserts found nodes (.partialNamed name) inside) (f : Frame) :
    (do
      let h ← find
      enter (.partialNamed name) fun inner => inner.nodes h.template.nodes f).FailsOnly invariant
      (r.Fails own inserts found room chain nodes) := by
  have hfound := hfind.mono fun e he => (.own he : r.Fails own inserts found room chain nodes e)
  refine hfound.bind fun h hh => ?_
  refine henter nodes _ _ ⟨_, hopens _ hh⟩ fun less inner _ hinner => ?_
  exact (hinner.nodes h.template.nodes f).mono fun e he => ⟨_, hopens _ hh, he⟩

theorem IsEntrance.rendererWith (hr : r.Upholds invariant own inserts found) {enter : Entrance}
    (henter : r.IsEntrance invariant own inserts found room chain enter) :
    r.IsLevel invariant own inserts found room chain (r.rendererWith enter) := by
  have hpartial (nodes : List Node) (name : Text) (f : Frame)
      (hopens : ∀ inside, found name inside →
        Node.Opens inserts found nodes (.partialNamed name) inside) :
      ((r.rendererWith enter).partialNamed name f).FailsOnly invariant
        (r.Fails own inserts found room chain nodes) :=
    henter.partialNamed (hr.partialNamed name) hopens f
  exact ⟨fun nodes f => .concat fun n hn => henter.node hr (hpartial nodes) f hn, hpartial⟩

/-- Running out of room inside a level counts as going too deep. -/
theorem guarded_failsOnly {act : SessionM Text} {label : Label} {nodes : List Node}
    (hact : act.FailsOnly invariant (r.FailsInside own inserts found room chain nodes label)) :
    (r.guarded (label :: chain) act).FailsOnly invariant
      (r.Fails own inserts found (room + 1) chain nodes) := by
  intro s hs
  have hrun := hact s hs
  rw [guarded, SessionM.Lockstep.run_tryCatch]
  generalize act.run s = outcome at hrun ⊢
  cases outcome with
  | ok t s' => exact hrun
  | error e s' =>
    obtain ⟨hs', inside, hopens, he⟩ := hrun
    cases e with
    | exhausted reason => exact ⟨hs', .guarded hopens he⟩
    | template e => exact ⟨hs', .inside hopens he nofun⟩
    | usage e => exact ⟨hs', .inside hopens he nofun⟩
    | foreign e => exact ⟨hs', .inside hopens he nofun⟩

/-- **Every level fails as is foreseen for it**, and keeps the invariant. -/
theorem Upholds.level (hr : r.Upholds invariant own inserts found) (room : Nat)
    (chain : List Label) :
    r.IsLevel invariant own inserts found room chain (r.renderer room chain) := by
  induction room generalizing chain with
  | zero =>
    refine IsEntrance.rendererWith hr fun nodes label act hopens _ => ?_
    obtain ⟨inside, hopens⟩ := hopens
    exact .throw (.tooDeep hopens)
  | succ room ih =>
    refine IsEntrance.rendererWith hr fun nodes label act _ hact => ?_
    exact guarded_failsOnly (hact room _ rfl (ih (label :: chain)))

end Rendering

end Stencil
