import Stencil.Engine.Basic
import Stencil.Proofs.Rendering.Lockstep

/-!
# Comparing what two engines render

A comparison of two renderings (`Comparison`) becomes one of two engines: the nodes of a template
are rendered in lockstep in the frames of related data, and what an engine answers is the outcome
of that.
-/

set_option autoImplicit false

namespace Stencil

open SessionM (Lockstep Outcomes)

variable {c : Comparison}

/-- Rendering starts from related data in related frames. -/
theorem Frame.related_ofData {v w : Value} (h : c.values v w) :
    (Frame.ofData v).Related c (Frame.ofData w) := by
  have hsimilar := c.similar h
  cases hsimilar with
  | null => exact .root c.noEntries
  | _ => exact .root h

namespace Environment

variable {q r : Environment} {t u : Template}

theorem topRenderer_related (hexhausted : ∀ reason, ¬ c.excused (.exhausted reason))
    (h : (q.rendering t).Related c (r.rendering u))
    (hdepth : q.config.maxDepth = r.config.maxDepth) :
    (q.topRenderer t).Related c (r.topRenderer u) :=
  Rendering.renderer_related h hexhausted (.inl ⟨hdepth, hdepth, rfl⟩)

/-- **A template is rendered in lockstep**, if its nodes may be rendered. -/
theorem render_lockstep (hexhausted : ∀ reason, ¬ c.excused (.exhausted reason))
    (h : (q.rendering t).Related c (r.rendering u))
    (hdepth : q.config.maxDepth = r.config.maxDepth) (hnodes : t.nodes = u.nodes)
    (hadmits : c.AdmitsAll t.nodes) {v w : Value} (hv : c.values v w) :
    Lockstep c.stores c.excused c.Output (q.render t v) (r.render u w) := by
  rw [render, render, ← hnodes]
  exact (topRenderer_related hexhausted h hdepth).nodes _ hadmits _ _ (Frame.related_ofData hv)

end Environment

namespace Engine

variable {α β : Type} {a b : Engine}

/-- What engines do in lockstep leads to related results, unless the left one fails and is
excused. -/
theorem perform_rel {stores : Store → Store → Prop} {excused : Failure → Prop}
    {results : α → β → Prop} {x : SessionM α} {y : SessionM β}
    (hxy : Lockstep stores excused results x y) (h : a.session.Alike stores b.session) :
    (∃ e, (a.perform x).1 = .error e ∧ excused e) ∨
      Except.Rel results (a.perform x).1 (b.perform y).1 := by
  have houtcomes := hxy _ _ h
  rw [perform, perform]
  generalize x.run a.session = left at houtcomes ⊢
  generalize y.run b.session = right at houtcomes ⊢
  cases houtcomes with
  | ok hresult halike => exact .inr (.ok hresult)
  | error halike => exact .inr (.error _)
  | excused he => exact .inl ⟨_, rfl, he⟩

/-- Node by node, engines come to the same outputs and the same end, if no failure is excused. -/
theorem renderNodes_eq (hexcused : ∀ e, ¬ c.excused e) {h : Handle}
    (hrendering : (a.env.rendering h.template).Related c (b.env.rendering h.template))
    (hdepth : a.env.config.maxDepth = b.env.config.maxDepth)
    (hadmits : c.AdmitsAll h.template.nodes) (hsession : a.session.Alike c.stores b.session)
    {data data' : Value} (hdata : c.values data data') :
    (a.renderNodes h data).1 = (b.renderNodes h data').1 ∧
      (a.renderNodes h data).2.1 = (b.renderNodes h data').2.1 := by
  have hlevel := (Environment.topRenderer_related (fun _ => hexcused _) hrendering hdepth).nodes
  have houtputs := Lockstep.outputs (fun n (hn : n ∈ h.template.nodes) =>
    (hlevel [n] (hadmits.singleton hn) _ _ (Frame.related_ofData hdata)).mono
      fun t u (ht : c.Output t u) => ht.1) hsession
  rw [renderNodes, renderNodes, Environment.renderNodes, Environment.renderNodes]
  generalize SessionM.outputs _ h.template.nodes a.session = left at houtputs ⊢
  generalize SessionM.outputs _ h.template.nodes b.session = right at houtputs ⊢
  obtain ⟨texts, finish⟩ := left
  obtain ⟨texts', finish'⟩ := right
  obtain ⟨houtcomes, htexts⟩ := houtputs
  obtain rfl : texts = texts' := htexts fun e _ _ => hexcused e
  dsimp only at houtcomes ⊢
  cases houtcomes with
  | ok hresult halike => exact ⟨rfl, rfl⟩
  | error halike => exact ⟨rfl, rfl⟩
  | excused he => exact absurd he (hexcused _)

end Engine

end Stencil
