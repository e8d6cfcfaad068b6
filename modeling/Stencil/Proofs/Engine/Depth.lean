import Stencil.Proofs.Engine.Steps

/-!
# A lower limit of nesting only adds failures

An engine limits how deeply sections and partials may be nested.  Whatever is rendered within a
limit comes to the same end within any higher one, and what a lower limit changes is that more
renderings fail for going too deep.

The recursion of rendering is recursion on the levels that are left, so two renderings that differ
in the limit go down the same levels as long as both have one left (`Rendering.renderer_alike`).
The one with the lower limit runs out first, and where it does it fails.  A partial that inserts
itself is no exception: nothing is assumed of the chain but its length.
-/

set_option autoImplicit false

namespace Stencil

/-- A limit of nesting that an engine may be given. -/
abbrev DepthLimit := { depth : Nat // 1 ≤ depth ∧ depth ≤ maxDepthLimit }

/-- The configuration with another limit of nesting. -/
def EngineConfig.withMaxDepth (c : EngineConfig) (limit : DepthLimit) : EngineConfig :=
  { c with
    maxDepth := limit.val
    one_le_maxDepth := limit.property.1
    maxDepth_le := limit.property.2 }

/-- The failure of nesting sections and partials too deeply. -/
def Failure.IsTooDeep (e : Failure) : Prop :=
  ∃ limit chain, e = .template (.recursionLimit limit chain)

/-- Environments that differ in their limits only are alike, apart from failures for going too
deep. -/
theorem Environment.alike_of_maxDepth_le {q r : Environment} (hhelpers : q.helpers = r.helpers)
    (hloader : q.loader = r.loader) (hescape : q.escape = r.escape)
    (hdepth : q.config.maxDepth ≤ r.config.maxDepth)
    (hoptions : q.config.compileOptions = r.config.compileOptions) :
    q.Alike Eq Failure.IsTooDeep r := by
  refine ⟨hhelpers, hloader, hescape, .inr ⟨hdepth, ?_⟩, ?_⟩
  · intro limit chain
    exact ⟨limit, chain, rfl⟩
  · rw [hoptions]
    exact .refl (fun _ _ _ _ => .refl (fun _ => rfl) _) _

/-- A template stands for itself, whatever limit the failures are excused by. -/
theorem standsFor_tooDeep : StandsFor Eq Failure.IsTooDeep := by
  refine standsFor_eq ?_ ?_
  · rintro reason ⟨limit, chain, h⟩
    exact absurd h (by simp)
  · rintro _ ⟨limit, chain, rfl⟩
    exact Failure.isPassedOn_template _

namespace Engine

/-- The engine with another limit of nesting. -/
def withMaxDepth (e : Engine) (limit : DepthLimit) : Engine :=
  { e with env := { e.env with config := e.env.config.withMaxDepth limit } }

/-- What a rendering comes to within a limit, in comparison with what it comes to within a higher
one: it goes too deep, or it comes to the same. -/
def OnlyAddsTooDeep (lower higher : Except Failure Text) : Prop :=
  (∃ limit chain, lower = .error (.template (.recursionLimit limit chain))) ∨ lower = higher

theorem Performed.onlyAddsTooDeep {x y : Except Failure Text × Engine}
    (h : Performed Eq Failure.IsTooDeep Eq x y) : OnlyAddsTooDeep x.1 y.1 := by
  refine h.result.imp_left ?_
  rintro ⟨_, hx, limit, chain, rfl⟩
  exact ⟨limit, chain, hx⟩

/-- An output within a limit is the output within every higher one. -/
theorem OnlyAddsTooDeep.output {lower higher : Except Failure Text}
    (h : OnlyAddsTooDeep lower higher) {output : Text} (hlower : lower = .ok output) :
    higher = .ok output := by
  rcases h with ⟨limit, chain, hfail⟩ | hsame
  · rw [hlower] at hfail
    exact absurd hfail (by simp)
  · rw [← hsame, hlower]

theorem alike_withMaxDepth {e : Engine} (hcoherent : e.session.store.Coherent e.env.helpers.known)
    {lower higher : DepthLimit} (hle : lower.val ≤ higher.val) :
    (e.withMaxDepth lower).Alike Eq Failure.IsTooDeep (e.withMaxDepth higher) := by
  have henv : (e.withMaxDepth lower).env.Alike Eq Failure.IsTooDeep (e.withMaxDepth higher).env :=
    Environment.alike_of_maxDepth_le rfl rfl rfl hle rfl
  exact ⟨henv, Session.alike_self (fun _ => rfl) hcoherent⟩

/-- **A lower limit of nesting only adds failures.**

* Two engines that differ in nothing but the limit give the same answers to the same steps, until
  the one with the lower limit fails for going too deep.
* An engine that any steps have led to renders a source or a compiled template within the lower
  limit as it does within the higher one, or fails in that way; so an output within a limit is the
  output within every higher one. -/
theorem maxDepth_onlyAddsTooDeep (config : EngineConfig) (loader : Option Loader)
    (escape : Option Escaper) (tree : FileTree) (next : Nat) (steps : List Step)
    (lower higher : DepthLimit) (hle : lower.val ≤ higher.val) :
    Followed Eq Failure.IsTooDeep
      (((create (config.withMaxDepth lower) loader escape tree).withStreams next).follow [] steps)
      (((create (config.withMaxDepth higher) loader escape tree).withStreams next).follow []
        steps) ∧
    let e := (((create config loader escape tree).withStreams next).follow [] steps).2
    (∀ source data, OnlyAddsTooDeep ((e.withMaxDepth lower).renderSource source data).1
      ((e.withMaxDepth higher).renderSource source data).1) ∧
    (∀ h data, OnlyAddsTooDeep ((e.withMaxDepth lower).render h data).1
      ((e.withMaxDepth higher).render h data).1) ∧
    (∀ source data output, ((e.withMaxDepth lower).renderSource source data).1 = .ok output →
      ((e.withMaxDepth higher).renderSource source data).1 = .ok output) ∧
    ∀ h data output, ((e.withMaxDepth lower).render h data).1 = .ok output →
      ((e.withMaxDepth higher).render h data).1 = .ok output := by
  refine ⟨?_, ?_⟩
  · have henv : (create (config.withMaxDepth lower) loader escape tree).env.Alike Eq
        Failure.IsTooDeep (create (config.withMaxDepth higher) loader escape tree).env :=
      Environment.alike_of_maxDepth_le rfl rfl rfl hle rfl
    exact follow_alike standsFor_tooDeep (alike_of_env rfl rfl henv next) .nil steps
  · intro e
    have hcoherent := coherent_follow_create config loader escape tree next steps
    have halike := alike_withMaxDepth hcoherent hle
    have hsource : ∀ source data,
        OnlyAddsTooDeep ((e.withMaxDepth lower).renderSource source data).1
          ((e.withMaxDepth higher).renderSource source data).1 := fun source data =>
      (halike.renderSource standsFor_tooDeep source data).onlyAddsTooDeep
    have hhandle : ∀ h data, OnlyAddsTooDeep ((e.withMaxDepth lower).render h data).1
        ((e.withMaxDepth higher).render h data).1 := fun h data =>
      (halike.render standsFor_tooDeep rfl data).onlyAddsTooDeep
    exact ⟨hsource, hhandle, fun source data output => (hsource source data).output,
      fun h data output => (hhandle h data).output⟩

/-- Two nested sections do not fit into a limit of one, and within a limit of two they are
rendered. -/
theorem maxDepth_onlyAddsTooDeep_nested :
    let config : EngineConfig := { EngineConfig.standard with delimiters := (['<'], ['>']) }
    let e := (((create config none none { directory := .parse [] }).withStreams 0).follow [] []).2
    let source := "<#a><#b>x</b></a>".toList
    let data := Value.map [(.text ['a'], .bool true), (.text ['b'], .bool true)]
    let low := ((e.withMaxDepth ⟨1, by decide⟩).renderSource source data).1
    let high := ((e.withMaxDepth ⟨2, by decide⟩).renderSource source data).1
    1 ≤ 2 ∧ OnlyAddsTooDeep low high ∧
      low = .error (.template (.recursionLimit 1 [.block ['a'], .block ['b']])) ∧
      high = .ok ['x'] := by
  intro config e source data low high
  have hrender := maxDepth_onlyAddsTooDeep config none none { directory := .parse [] } 0 []
    ⟨1, by decide⟩ ⟨2, by decide⟩ (by decide)
  exact ⟨by decide, hrender.2.1 source data, by decide +kernel, by decide +kernel⟩

end Engine

end Stencil
