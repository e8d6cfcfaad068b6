import Stencil.Proofs.Engine.Insertion
import Stencil.Proofs.Engine.Invariant
import Stencil.Proofs.Engine.Steps

/-!
# Partials are loaded unnoticed

A partial is loaded when it is asked for the first time, and what has been loaded is registered.
Rendering therefore changes what an engine remembers, and how far it gets with that depends on the
data and on where it fails.  None of it can be noticed: whoever asks the engine for anything later
gets the answer that it would have given without (`Engine.follow_inSession_of_definesNothing`).

The reason is that loading does not change what is inserted under any name
(`Environment.Inserts`).  Two engines that insert the same, whatever they have loaded of it, stay
so and answer alike (`Engine.InsertAlike.follow`), as long as nothing is defined in between.
-/

set_option autoImplicit false

namespace Stencil

open SessionM (Lockstep)

/-- A request that defines no helper, no partial and no template of the loader. -/
def Request.DefinesNothing : Request → Prop
  | .compile .. | .template _ | .render .. | .renderSource .. | .renderNodes .. => True
  | .registerHelper .. | .registerPartial .. | .registerPartialSource .. | .define .. => False

/-- A step that defines nothing. -/
def Step.DefinesNothing : Step → Prop
  | .ask q => q.DefinesNothing
  | .registerPartial .. => False
  | .render .. | .renderNodes .. => True

/-- What a step asks for defines nothing if the step does not. -/
theorem Step.DefinesNothing.request? {step : Step} (h : step.DefinesNothing)
    {answers : List (Option Answer)} {q : Request} (hq : step.request? answers = some q) :
    q.DefinesNothing := by
  cases step with
  | ask p =>
    obtain rfl := Option.some.inj hq
    exact h
  | registerPartial name earlier => exact h.elim
  | render earlier data =>
    obtain ⟨k, -, rfl⟩ := Option.map_eq_some_iff.1 hq
    trivial
  | renderNodes earlier data =>
    obtain ⟨k, -, rfl⟩ := Option.map_eq_some_iff.1 hq
    trivial

/-! ## Compiling and rendering -/

namespace Environment

variable (env : Environment) (partials : Table Handle)

theorem compilingKeeps_bothInsert :
    Store.CompilingKeeps env.helpers.known (env.BothInsert partials) where
  left h := h.1.1
  right h := h.2.1
  of_partials h hs ht hleft hright := ⟨⟨hleft, hs ▸ h.1.2⟩, ⟨hright, ht ▸ h.2.2⟩⟩

theorem compileKey_insertAlike (key : CacheKey) :
    Lockstep (env.BothInsert partials) (fun _ => False) (fun h k => h.template = k.template)
      (env.compileKey key) (env.compileKey key) :=
  compileKey_related (env.compilingKeeps_bothInsert partials) rfl rfl (.refl (fun _ => rfl) _)

theorem compile_insertAlike (name source : Text) :
    Lockstep (env.BothInsert partials) (fun _ => False) (fun h k => h.template = k.template)
      (env.compile name source) (env.compile name source) := by
  rw [compile]
  exact (Lockstep.ofExcept (.refl (fun _ => rfl) _)).bind_eq fun options =>
    env.compileKey_insertAlike partials ⟨name, source, options⟩

/-- A rendering goes in lockstep with itself where the same is inserted. -/
theorem rendering_insertAlike (t : Template) :
    (env.rendering t).Alike (env.BothInsert partials) (fun _ => False) (env.rendering t) := by
  refine ⟨rfl, rfl, rfl, fun f p => .ofExcept (.refl (fun _ => rfl) _), fun name => ?_,
    fun _ he => he.elim⟩
  exact (env.partialNamed_related partials name).mono fun _ _ => congrArg Template.nodes

/-- **A level is rendered in lockstep where the same is inserted.** -/
theorem renderer_insertAlike (t : Template) (room : Nat) (chain : List Label) :
    ((env.rendering t).renderer room chain).Alike (env.BothInsert partials) (fun _ => False)
      ((env.rendering t).renderer room chain) := by
  have hrendering := env.rendering_insertAlike partials t
  exact Rendering.renderer_alike hrendering (fun _ => id) (.inl ⟨rfl, rfl, rfl⟩)

theorem topRenderer_insertAlike (t : Template) :
    (env.topRenderer t).Alike (env.BothInsert partials) (fun _ => False) (env.topRenderer t) :=
  env.renderer_insertAlike partials t env.config.maxDepth []

theorem render_insertAlike {t u : Template} (ht : t = u) (data : Value) :
    Lockstep (env.BothInsert partials) (fun _ => False) Eq (env.render t data)
      (env.render u data) := by
  subst ht
  exact (env.topRenderer_insertAlike partials t).nodes _ _

end Environment

/-! ## Engines that insert the same -/

namespace Engine

/-- Two engines work with the same and insert what some partials do, whatever they have loaded. -/
structure InsertAlike (partials : Table Handle) (a b : Engine) : Prop where
  /-- They work with the same. -/
  env : a.env = b.env
  /-- Their sessions are alike, with stores that insert the same. -/
  session : a.session.Alike (a.env.BothInsert partials) b.session

variable {partials : Table Handle} {a b : Engine}

/-- What is done in lockstep leads to engines that insert the same. -/
theorem InsertAlike.perform (h : a.InsertAlike partials b) {α β : Type} {results : α → β → Prop}
    {x : SessionM α} {y : SessionM β}
    (hxy : Lockstep (a.env.BothInsert partials) (fun _ => False) results x y) {wrap : α → Answer}
    {wrap' : β → Answer} (hwrap : ∀ v w, results v w → (wrap v).Alike Eq (wrap' w)) :
    (Answer.ofResult wrap (a.perform x)).1.Alike Eq (Answer.ofResult wrap' (b.perform y)).1 ∧
      (Answer.ofResult wrap (a.perform x)).2.InsertAlike partials
        (Answer.ofResult wrap' (b.perform y)).2 := by
  have houtcomes := hxy _ _ h.session
  rw [Engine.perform, Engine.perform]
  generalize x.run a.session = left at houtcomes ⊢
  generalize y.run b.session = right at houtcomes ⊢
  cases houtcomes with
  | ok hresult halike => exact ⟨hwrap _ _ hresult, h.env, halike⟩
  | error halike => exact ⟨.same _, h.env, halike⟩
  | excused he => exact he.elim

theorem InsertAlike.renderNodes (h : a.InsertAlike partials b) {k k' : Handle}
    (hk : k.template = k'.template) (data : Value) :
    (a.serve (.renderNodes k data)).1.Alike Eq (b.serve (.renderNodes k' data)).1 ∧
      (a.serve (.renderNodes k data)).2.InsertAlike partials
        (b.serve (.renderNodes k' data)).2 := by
  have hnode := (a.env.topRenderer_insertAlike partials k.template).nodes
  have houtputs := Lockstep.outputs
    (fun node (_ : node ∈ k.template.nodes) => hnode [node] (.ofData data)) h.session
  rw [serve, serve, Engine.renderNodes, Engine.renderNodes, Environment.renderNodes,
    Environment.renderNodes, ← hk, ← h.env]
  generalize SessionM.outputs _ k.template.nodes a.session = left at houtputs ⊢
  generalize SessionM.outputs _ k.template.nodes b.session = right at houtputs ⊢
  obtain ⟨texts, finish⟩ := left
  obtain ⟨texts', finish'⟩ := right
  obtain ⟨houtcomes, htexts⟩ := houtputs
  obtain rfl : texts = texts' := htexts fun _ _ _ => id
  dsimp only at houtcomes ⊢
  cases houtcomes with
  | ok hresult halike => exact ⟨.same _, rfl, halike⟩
  | error halike => exact ⟨.same _, rfl, halike⟩
  | excused he => exact he.elim

/-- **Engines that insert the same answer alike** when nothing is defined, and go on inserting the
same. -/
theorem InsertAlike.serve (h : a.InsertAlike partials b) {p q : Request} (hpq : p.Alike Eq q)
    (hp : p.DefinesNothing) :
    (a.serve p).1.Alike Eq (b.serve q).1 ∧ (a.serve p).2.InsertAlike partials (b.serve q).2 := by
  obtain ⟨env, s⟩ := a
  obtain ⟨env', t⟩ := b
  obtain rfl : env = env' := h.env
  have hhandle : ∀ k k' : Handle, k.template = k'.template →
      (Answer.template k).Alike Eq (.template k') := fun _ _ => .template
  have houtput : ∀ t u : Text, t = u → (Answer.output t).Alike Eq (.output u) := by
    rintro t _ rfl
    exact .same _
  cases hpq with
  | registerPartial name ht => exact hp.elim
  | render ht data => exact h.perform (env.render_insertAlike partials ht data) houtput
  | renderNodes ht data => exact h.renderNodes ht data
  | same =>
    cases p with
    | registerHelper name helper allowReserved => exact hp.elim
    | registerPartial name k => exact hp.elim
    | registerPartialSource name source => exact hp.elim
    | define name source => exact hp.elim
    | compile name source options =>
      cases options with
      | none => exact h.perform (env.compile_insertAlike partials name source) hhandle
      | some options => exact h.perform (env.compileKey_insertAlike partials _) hhandle
    | template name => exact h.perform (env.partialNamed_related partials name) hhandle
    | render k data => exact h.perform (env.render_insertAlike partials rfl data) houtput
    | renderSource source data =>
      exact h.perform ((env.compile_insertAlike partials _ source).bind fun _ _ hk =>
        env.render_insertAlike partials hk data) houtput
    | renderNodes k data => exact h.renderNodes rfl data

/-- Over any steps that define nothing, engines that insert the same answer alike. -/
theorem InsertAlike.follow (h : a.InsertAlike partials b) {xs ys : List (Option Answer)}
    (hbefore : List.Forall₂ (Option.Rel (Answer.Alike Eq)) xs ys) {steps : List Step}
    (hsteps : ∀ step ∈ steps, step.DefinesNothing) :
    List.Forall₂ (Option.Rel (Answer.Alike Eq)) (a.follow xs steps).1 (b.follow ys steps).1 := by
  induction steps generalizing a b xs ys with
  | nil => exact .nil
  | cons step steps ih =>
    have hrest : ∀ step ∈ steps, step.DefinesNothing :=
      fun step hstep => hsteps step (List.mem_cons_of_mem _ hstep)
    have hrequest := step.request?_rel hbefore fun _ => rfl
    rw [Engine.follow, Engine.follow]
    cases hp : step.request? xs with
    | none =>
      rw [hp] at hrequest
      generalize step.request? ys = q? at hrequest ⊢
      cases hrequest with
      | none => exact .cons .none (ih h (List.rel_append hbefore (.cons .none .nil)) hrest)
    | some p =>
      rw [hp] at hrequest
      generalize step.request? ys = q? at hrequest ⊢
      cases hrequest with
      | some hpq =>
        obtain ⟨hanswer, hengines⟩ :=
          h.serve hpq ((hsteps step List.mem_cons_self).request? hp)
        exact .cons (.some hanswer)
          (ih hengines (List.rel_append hbefore (.cons (.some hanswer) .nil)) hrest)

/-- A request that defines nothing leaves alone what the engine works with. -/
theorem serve_env_of_definesNothing (e : Engine) {q : Request} (hq : q.DefinesNothing) :
    (e.serve q).2.env = e.env := by
  have hperform : ∀ {α : Type} (wrap : α → Answer) (act : SessionM α),
      (Answer.ofResult wrap (e.perform act)).2.env = e.env := by
    intro α wrap act
    rw [ofResult_snd, perform_env]
  cases q with
  | registerHelper name helper allowReserved => exact hq.elim
  | registerPartial name k => exact hq.elim
  | registerPartialSource name source => exact hq.elim
  | define name source => exact hq.elim
  | compile name source options => exact hperform _ _
  | template name => exact hperform _ _
  | render k data => exact hperform _ _
  | renderSource source data => exact hperform _ _
  | renderNodes k data => exact e.renderNodes_env k data

/-- A reachable engine inserts the same as itself, among whatever streams. -/
theorem IsReachable.insertAlike (h : a.IsReachable) (s : Session) :
    (a.inSession s).InsertAlike a.session.store.partials (a.inSession s) :=
  ⟨rfl, ⟨⟨h.coherent, fun _ => rfl⟩, ⟨h.coherent, fun _ => rfl⟩⟩, rfl, rfl, rfl⟩

/-- A request that defines nothing leads to an engine that inserts the same as before. -/
theorem IsReachable.insertAlike_serve (h : a.IsReachable) (s t : Session) {q : Request}
    (hq : q.DefinesNothing) :
    (((a.inSession s).serve q).2.inSession t).InsertAlike a.session.store.partials
      (a.inSession t) := by
  have henv : ((a.inSession s).serve q).2.env = a.env := serve_env_of_definesNothing _ hq
  have hserved := ((h.insertAlike s).serve (.same q) hq).2.session.stores.1
  refine ⟨henv, ⟨hserved, ?_⟩, rfl, rfl, rfl⟩
  show (((a.inSession s).serve q).2.env).Inserts a.session.store.partials a.session.store
  rw [henv]
  exact ⟨h.coherent, fun _ => rfl⟩

/-- **Loading partials on demand cannot be noticed.**  Whatever a reachable engine has been asked
for, if it was to render, to compile or to find a template, later steps that define nothing get the
answers that they would have got without, with equal templates in them.  That holds whatever streams
there are when the first request is served (`s`) and when the later ones are (`t`), and whatever
answers of earlier steps the later steps refer to.  In particular, what is rendered twice among the
same streams comes to the same result. -/
theorem follow_inSession_of_definesNothing {e : Engine} (he : e.IsReachable) (s t : Session)
    (first : Request) (hfirst : first.DefinesNothing) (before : List (Option Answer))
    {later : List Step} (hlater : ∀ step ∈ later, step.DefinesNothing) :
    let after := ((e.inSession s).serve first).2
    List.Forall₂ (Option.Rel (Answer.Alike Eq)) ((after.inSession t).follow before later).1
        ((e.inSession t).follow before later).1 ∧
      ((after.inSession s).serve first).1.Alike Eq ((e.inSession s).serve first).1 := by
  have hbefore : List.Forall₂ (Option.Rel (Answer.Alike Eq)) before before :=
    List.forall₂_same.2 fun answer _ => by
      cases answer with
      | none => exact .none
      | some x => exact .some (.same x)
  have hlater' := (he.insertAlike_serve s t hfirst).follow hbefore hlater
  have hagain := (he.insertAlike_serve s s hfirst).serve (.same first) hfirst
  exact ⟨hlater', hagain.1⟩

/-- Rendering a source loads a partial.  The template of its name is found and rendered later as if
that had not happened. -/
theorem follow_inSession_of_definesNothing_partial :
    let loader : Loader := .map [(['p'], "[\x7b\x7bx\x7d\x7d]".toList)]
    let e := (create .standard (some loader) none { directory := .parse ['/'] }).withStreams 0
    let data : Value := .map [(.text ['x'], .int 1)]
    let first : Request := .renderSource "\x7b\x7b>p\x7d\x7d".toList data
    let later : List Step := [.ask (.template ['p']), .render 0 data]
    let after := (e.serve first).2
    e.session.store.partials.map (·.1) = [] ∧ after.session.store.partials.map (·.1) = [['p']] ∧
      first.DefinesNothing ∧ (∀ step ∈ later, step.DefinesNothing) ∧
      List.Forall₂ (Option.Rel (Answer.Alike Eq)) ((after.inSession e.session).follow [] later).1
        (e.follow [] later).1 := by
  intro loader e data first later after
  have hlater : ∀ step ∈ later, step.DefinesNothing := by
    intro step hstep
    simp only [later, List.mem_cons, List.not_mem_nil, or_false] at hstep
    rcases hstep with rfl | rfl
    · trivial
    · trivial
  have hreachable : e.IsReachable := ⟨.standard, some loader, none, _, 0, [], rfl⟩
  have halike := follow_inSession_of_definesNothing hreachable e.session e.session first trivial
    [] hlater
  exact ⟨rfl, by decide +kernel, trivial, hlater, halike.1⟩

end Engine

end Stencil
