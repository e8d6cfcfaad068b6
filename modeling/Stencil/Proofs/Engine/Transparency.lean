import Stencil.Engine.Basic
import Stencil.Proofs.Rendering.Origin

/-!
# What the caller of a rendering is told

A rendering fails with the first error about templates that anything in it fails with, and the error
is not changed on its way to the caller, whatever sections, partials and helpers it passes
(`Engine.render_transparent`).  So a helper that stops for a reason of its own is reported once,
with its name and the place of the tag that calls it, and never as the reason of another helper.
Conversely the caller is not told that a helper has failed unless one has.
-/

set_option autoImplicit false

namespace Stencil

namespace Engine

/-- The moment at which an engine begins to render a template. -/
def beginning (e : Engine) (h : Handle) (data : Value) : Moment :=
  ⟨.nodes ⟨e.env.config.maxDepth, []⟩ h.template.nodes (.ofData data), e.session⟩

/-- The caller is told what the beginning fails with. -/
theorem render_eq_error_iff (e : Engine) (h : Handle) (data : Value) (failure : Failure) :
    (e.render h data).1 = .error failure ↔
      (e.beginning h data).Fails (e.env.rendering h.template) failure := by
  have hfails : (e.beginning h data).Fails (e.env.rendering h.template) failure ↔
      (e.env.render h.template data).FailsFrom e.session failure := Iff.rfl
  rw [hfails, render, perform, SessionM.FailsFrom]
  cases (e.env.render h.template data).run e.session with
  | ok output s => simp
  | error other s => simp

/-- **Rendering reports errors as they are.**  An engine renders a template.

* If a helper stops for a reason of its own, the rendering fails with a report of the reason, and
  with the name and the place of the tag or call in parentheses that has called the helper.
* If anything in the rendering fails with an error about templates, the rendering fails with this
  error.
* If the rendering fails with a report that a helper has failed, then a helper has stopped for this
  reason, at a place and under a name as reported, or has made the report itself. -/
theorem render_transparent (e : Engine) (h : Handle) (data : Value) :
    let r := e.env.rendering h.template
    (∀ m site kind reason, r.Comprises (e.beginning h data) m →
      m.activity.Stops site (.failure kind reason) →
        (e.render h data).1 =
            .error (.template (.helperFailed site.name kind reason site.position)) ∧
          ∃ tag, r.Comprises (e.beginning h data) tag ∧
            tag.activity.tag? = some (site.name, site.position) ∧
            r.Makes (site.name, site.position) tag m) ∧
    (∀ m error, r.Comprises (e.beginning h data) m → m.Fails r (.template error) →
      (e.render h data).1 = .error (.template error)) ∧
    ∀ name kind reason position,
      (e.render h data).1 = .error (.template (.helperFailed name kind reason position)) →
        ∃ m site why, r.Comprises (e.beginning h data) m ∧ m.activity.Stops site why ∧
          (why = .failure kind reason ∧ site.name = name ∧ site.position = position ∨
            why = .error (.helperFailed name kind reason position)) := by
  intro r
  have hpass : ∀ m error, r.Comprises (e.beginning h data) m → m.Fails r (.template error) →
      (e.render h data).1 = .error (.template error) := fun m error hm hfails =>
    (e.render_eq_error_iff h data _).2 (hm.fails hfails)
  refine ⟨?_, hpass, ?_⟩
  · rintro ⟨a, s⟩ site kind reason hm ⟨l, output, rfl⟩
    refine ⟨hpass _ _ hm ⟨s, rfl⟩, ?_⟩
    exact hm.exists_tag rfl rfl
  · intro name kind reason position hfailed
    obtain ⟨m, site, why, hm, hstops, herror⟩ :=
      Rendering.accounts_nodes _ _ _ _ _ rfl ((e.render_eq_error_iff h data _).1 hfailed)
    refine ⟨m, site, why, hm, hstops, ?_⟩
    cases why with
    | failure kind' reason' =>
      obtain ⟨hname, rfl, rfl, hposition⟩ :=
        TemplateError.helperFailed.inj (Failure.template.inj herror)
      exact .inl ⟨rfl, hname, hposition⟩
    | error error => exact .inr (congrArg _ (Failure.template.inj herror))
    | exhausted reason' => exact absurd herror nofun

/-- A helper that fails in the body of a condition. -/
theorem render_transparent_condition :
    let failing : Helper := .custom fun _ => .stop (.failure "KeyError" "x")
    let e : Engine :=
      { env := { helpers := Table.insert HelperRegistry.builtins "broken" failing } }
    let a : Path := ⟨['a'], [['a']], 0, false⟩
    let tag : Node :=
      .output true ⟨⟨"broken", ["broken".toList], 0, false⟩, [.path a], []⟩ ⟨1, 10⟩
    let call : Call := ⟨⟨"if", ["if".toList], 0, false⟩, [.path a], []⟩
    let h : Handle := ⟨0, ⟨[], [], [.block false call [tag] none ⟨1, 1⟩], {}, [], []⟩⟩
    let data := Value.map [(.text ['a'], .bool true)]
    (e.render h data).1 =
      .error (.template (.helperFailed "broken" "KeyError" "x" ⟨1, 10⟩)) := by
  intro failing e a tag call h data
  let r := e.env.rendering h.template
  let l : Level := ⟨63, [.block "if"]⟩
  let f := Frame.ofData data
  let branches := Branches.ofNodes (r.rendererOf l).nodes (some [tag]) none
  let outer : CallSite := ⟨"if", ⟨1, 1⟩, f, some branches⟩
  let inner : CallSite := ⟨"broken", ⟨1, 10⟩, f, none⟩
  have hinside : r.Comprises (e.beginning h data)
      ⟨.inside l false call [tag] none ⟨1, 1⟩ f, {}⟩ :=
    .head .firstNode (.single (@Rendering.Involves.block r 63 [] _ _ _ _ _ _ _))
  have hif : r.Comprises ⟨.inside l false call [tag] none ⟨1, 1⟩ f, {}⟩
      ⟨.script l outer (r.scriptOf outer (.builtin .ifTrue) [.bool true] (Table.ofList [])) [],
        {}⟩ :=
    .head (.blockCall rfl) (.single (.script rfl rfl rfl))
  have hbody : r.Involves
      ⟨.script l outer (.render .body {} fun output => .done (.text output)) [], {}⟩
      ⟨.nodes l (Branch.body.nodes (some [tag]) none) f, {}⟩ := .scriptBranch rfl
  have hbroken : r.Comprises ⟨.nodes l [tag] f, {}⟩
      ⟨.script l inner (r.scriptOf inner failing [.bool true] (Table.ofList [])) [], {}⟩ :=
    .head .firstNode (.head (.outputCall rfl) (.single (.script rfl rfl rfl)))
  have hstops := hinside.trans (hif.trans (.head hbody hbroken))
  exact ((e.render_transparent h data).1 _ inner _ _ hstops ⟨l, [], rfl⟩).1

end Engine

end Stencil
