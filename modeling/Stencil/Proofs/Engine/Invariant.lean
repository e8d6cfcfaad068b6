import Stencil.Engine.Request
import Stencil.Proofs.Rendering.Invariant

/-!
# What requests keep

An invariant of sessions that nothing breaks that is done to a session in an environment
(`Environment.Maintains`) is kept by every request to an engine, also by one that fails.  Only the
registration of a helper is left out, because it changes what the engine works with
(`Engine.serve_keeps`).

The hard part of `Environment.Maintains` is looking up partials, which does all the other things
while a name is locked.  What is common to all invariants there is said once, by
`Environment.loadPartial_preserves` and `Environment.partialNamed_preserves`; what becomes of the
locks is up to the invariant.
-/

set_option autoImplicit false

namespace Stencil

open SessionM (Keeps)

variable {invariant : Session → Prop}

/-! ## Compiling and loading -/

theorem Loader.isOfCompiling_of_mem_load {loader : Loader} {name : Text} {e : Event}
    (h : e ∈ (loader.load name).1) : e.isOfCompiling = false := by
  rcases Loader.eq_of_mem_load h with ⟨⟨_, _, rfl⟩, -⟩ | ⟨_, _, rfl⟩
  · rfl
  · rfl

namespace Environment

variable {env : Environment}

theorem compile_preserves (hcompile : ∀ key, (env.compileKey key).Preserves invariant)
    (name source : Text) : (env.compile name source).Preserves invariant := by
  rw [compile]
  exact (Keeps.ofExcept _).andThen fun options => hcompile _

/-- Loading a partial keeps an invariant that neither logging nor registering partials nor compiling
breaks. -/
theorem loadPartial_preserves
    (hrecord : ∀ (s : Session) (events : List Event), (∀ e ∈ events, e.isOfCompiling = false) →
      invariant s → invariant { s with log := events.reverse ++ s.log })
    (hpartials : ∀ (s : Session) (partials : Table Handle), invariant s →
      invariant { s with store := { s.store with partials } })
    (hcompile : ∀ key, (env.compileKey key).Preserves invariant) (loader : Loader) (name : Text) :
    (env.loadPartial loader name).Preserves invariant := by
  have hevents : ∀ e ∈ (loader.load name).1, e.isOfCompiling = false :=
    fun _ => Loader.isOfCompiling_of_mem_load
  rw [loadPartial]
  cases loader.fault? name with
  | some e => exact .throw _
  | none =>
  generalize loader.load name = found at hevents
  obtain ⟨events, source?⟩ := found
  refine (Keeps.record fun s hs => hrecord s events hevents hs).andThen fun _ => ?_
  cases source? with
  | none => exact .throw _
  | some source =>
    have hloaded : (SessionM.record [.partialLoaded name]).Preserves invariant :=
      .record fun s hs => hrecord s _ (by simp [Event.isOfCompiling, Event.source]) hs
    refine hloaded.andThen fun _ => (compile_preserves hcompile name source).andThen fun h => ?_
    have hinsert : (SessionM.modifyStore fun s =>
        { s with partials := Table.insert s.partials name h }).Preserves invariant :=
      .modifyStore fun s hs => hpartials s _ hs
    exact hinsert.andThen fun _ => .pure trivial

/-- Looking up a partial keeps an invariant if loading it keeps what becomes of the invariant while
the name is locked. -/
theorem partialNamed_preserves {inside : Session → Prop} {name : Text}
    (hload : ∀ loader, (env.loadPartial loader name).Preserves inside)
    (hlock : ∀ s : Session, invariant s → inside { s with store := s.store.lock name })
    (hunlock : ∀ s : Session, inside s → invariant { s with store := s.store.unlock name }) :
    (env.partialNamed name).Preserves invariant := by
  rw [partialNamed]
  refine .registeredOr (fun _ _ _ _ => trivial) fun _ _ _ => ?_
  cases env.loader with
  | none => exact .throw _
  | some loader =>
    have hfound : (SessionM.registeredOr name (env.loadPartial loader name)).Preserves inside :=
      .registeredOr (fun _ _ _ _ => trivial) fun _ _ _ => hload loader
    exact hfound.locking hlock hunlock

end Environment

/-! ## Requests -/

namespace Engine

variable {α : Type} {e : Engine}

theorem perform_env (e : Engine) (act : SessionM α) : (e.perform act).2.env = e.env := by
  rw [Engine.perform]
  split
  · rfl
  · rfl

theorem perform_keeps {act : SessionM α} (hact : act.Preserves invariant)
    (hs : invariant e.session) : invariant (e.perform act).2.session := by
  have hrun := hact e.session hs
  rw [perform]
  generalize act.run e.session = outcome at hrun ⊢
  cases outcome with
  | ok a s => exact hrun.1
  | error failure s => exact hrun

/-- What an operation ensures of its results and failures, an engine that performs it answers. -/
theorem perform_ensures {result : α → Prop} {fails : Failure → Prop}
    {act : SessionM α} (hact : act.Ensures invariant result fails) (hs : invariant e.session) :
    (∃ a, (e.perform act).1 = .ok a ∧ result a) ∨
      ∃ failure, (e.perform act).1 = .error failure ∧ fails failure := by
  have hrun := hact e.session hs
  rw [perform]
  generalize act.run e.session = outcome at hrun ⊢
  cases outcome with
  | ok a s => exact .inl ⟨a, rfl, hrun.2⟩
  | error failure s => exact .inr ⟨failure, rfl, hrun.2⟩

theorem ofResult_snd (wrap : α → Answer) (result : Except Failure α × Engine) :
    (Answer.ofResult wrap result).2 = result.2 := by
  rcases result with ⟨_ | _, _⟩ <;> rfl

theorem registerPartialFrom_keeps (h : e.env.Maintains invariant) (hs : invariant e.session)
    (name : Text) {compiled : SessionM Handle} (hcompiled : compiled.Preserves invariant) :
    invariant (e.registerPartialFrom name compiled).2.session := by
  rw [registerPartialFrom]
  split
  · exact hs
  · refine perform_keeps (hcompiled.andThen fun k => ?_) hs
    have hinsert : (SessionM.modifyStore fun s =>
        { s with partials := Table.insert s.partials name k }).Preserves invariant :=
      .modifyStore fun s hs => h.partials s _ hs
    exact hinsert.andThen fun _ => (h.record_keeps rfl).andThen fun _ => .pure trivial

theorem registerPartialFrom_env (e : Engine) (name : Text) (compiled : SessionM Handle) :
    (e.registerPartialFrom name compiled).2.env = e.env := by
  rw [registerPartialFrom]
  split
  · rfl
  · rw [perform_env]

/-- A helper that cannot be registered leaves the engine as it is. -/
theorem serve_registerHelper_error {name : Value} {helper : Helper} {allowReserved : Bool}
    {error : UsageError} (h : e.env.helpers.register name helper allowReserved = .error error) :
    e.serve (.registerHelper name helper allowReserved) = (.failed (.usage error), e) := by
  rw [serve, registerHelper, h]
  rfl

/-- A helper that is registered empties the cache. -/
theorem serve_registerHelper_ok {name : Value} {helper : Helper} {allowReserved : Bool}
    {helpers : HelperRegistry} {events : List Event}
    (h : e.env.helpers.register name helper allowReserved = .ok (helpers, events)) :
    e.serve (.registerHelper name helper allowReserved) =
      (.done, ⟨{ e.env with helpers }, { e.session with
        store := { e.session.store with cache := .empty }
        log := events.reverse ++ e.session.log }⟩) := by
  rw [serve, registerHelper, h]
  rfl

theorem renderNodes_env (e : Engine) (k : Handle) (data : Value) :
    (e.renderNodes k data).2.2.env = e.env := by
  rw [Engine.renderNodes]
  rcases e.env.renderNodes k.template data e.session with ⟨texts, _ | _⟩ <;> rfl

/-- No request changes the configuration. -/
theorem serve_config (e : Engine) (q : Request) : (e.serve q).2.env.config = e.env.config := by
  cases q with
  | registerHelper name helper allowReserved =>
    cases hregister : e.env.helpers.register name helper allowReserved with
    | error error => rw [serve_registerHelper_error hregister]
    | ok registered => rw [serve_registerHelper_ok hregister]
  | registerPartial name k =>
    rw [serve, ofResult_snd, registerPartial, registerPartialFrom_env]
  | registerPartialSource name source =>
    rw [serve, ofResult_snd, registerPartialSource, registerPartialFrom_env]
  | define name source => rfl
  | compile name source options => rw [serve, ofResult_snd, compile.eq_def, perform_env]
  | template name => rw [serve, ofResult_snd, template, perform_env]
  | render k data => rw [serve, ofResult_snd, render, perform_env]
  | renderSource source data => rw [serve, ofResult_snd, renderSource, perform_env]
  | renderNodes k data => exact congrArg Environment.config (e.renderNodes_env k data)

/-- **A request keeps the invariant**, unless it is to register a helper. -/
theorem serve_keeps (h : e.env.Maintains invariant) (hs : invariant e.session) {q : Request}
    (hq : ∀ name helper allowReserved, q ≠ .registerHelper name helper allowReserved) :
    invariant (e.serve q).2.session := by
  have hnodes : ∀ (t : Template) nodes f,
      ((e.env.topRenderer t).nodes nodes f).Preserves invariant := fun t =>
    (Environment.Maintains.renderer (r := e.env.rendering t) h _ []).nodes
  cases q with
  | registerHelper name helper allowReserved => exact absurd rfl (hq name helper allowReserved)
  | registerPartial name k =>
    rw [serve, ofResult_snd]
    exact registerPartialFrom_keeps h hs name (.pure trivial)
  | registerPartialSource name source =>
    rw [serve, ofResult_snd]
    exact registerPartialFrom_keeps h hs name (Environment.compile_preserves h.compileKey _ _)
  | define name source => exact hs
  | compile name source options =>
    rw [serve, ofResult_snd]
    cases options with
    | none => exact perform_keeps (Environment.compile_preserves h.compileKey _ _) hs
    | some options => exact perform_keeps (h.compileKey _) hs
  | template name =>
    rw [serve, ofResult_snd]
    exact perform_keeps (h.partialNamed name) hs
  | render k data =>
    rw [serve, ofResult_snd]
    exact perform_keeps (hnodes k.template _ _) hs
  | renderSource source data =>
    rw [serve, ofResult_snd]
    refine perform_keeps ?_ hs
    exact (Environment.compile_preserves h.compileKey _ _).andThen fun k => hnodes k.template _ _
  | renderNodes k data =>
    have houtputs := Keeps.outputs
      (fun node (_ : node ∈ k.template.nodes) => hnodes k.template [node] (.ofData data)) hs
    rw [serve, Engine.renderNodes, Environment.renderNodes]
    generalize SessionM.outputs _ k.template.nodes e.session = outcome at houtputs ⊢
    rcases outcome with ⟨texts, _ | _⟩
    · exact houtputs
    · exact houtputs

end Engine

end Stencil
