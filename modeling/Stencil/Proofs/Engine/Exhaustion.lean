import Stencil.Proofs.Engine.Comparison
import Stencil.Proofs.Engine.HelperNames
import Stencil.Proofs.Engine.Invariant
import Stencil.Proofs.Engine.LoadingError
import Stencil.Proofs.Engine.Steps

/-!
# Helpers that find no room

A helper that finds no room left to go on makes the rendering fail.  Inside a section or a partial
this is reported as going too deep, because entering a level guards what is done there
(`Rendering.guarded`).  A tag that stands outside every section and partial has no such guard around
it, and the failure of its helper comes out as it is.

That a helper has found no room is said by a rendering that does not guard anything
(`Rendering.unguarded`): it passes on what helpers fail with, wherever they are called.  Until that
happens the two renderings are in lockstep, whichever of them is excused for what comes then, so
what the guards change is that failure and nothing else.  Where no guard is passed is seen from the
outermost tags: what is inside a level comes out guarded, so a failure that is not has been caused
by a call that a tag makes before it enters a level (`Node.CallsOutside`).
-/

set_option autoImplicit false

namespace Stencil

open SessionM (Lockstep)

/-! ## Rendering without guards -/

namespace Rendering

/-- The renderer of a level, when something is done around all that is done inside the levels. -/
def rendererBy (r : Rendering) (around : List Label → SessionM Text → SessionM Text) :
    (room : Nat) → (chain : List Label) → Renderer
  | 0, chain => r.rendererWith fun label _ => throw (r.tooDeep (label :: chain))
  | room + 1, chain =>
    r.rendererWith fun label act =>
      around (label :: chain) (act (r.rendererBy around room (label :: chain)))

/-- Rendering is done with guards around. -/
theorem renderer_eq_rendererBy (r : Rendering) (room : Nat) (chain : List Label) :
    r.renderer room chain = r.rendererBy r.guarded room chain := by
  induction room generalizing chain with
  | zero => rfl
  | succ room ih => simp only [renderer, rendererBy, ih]

/-- The renderer of a level that passes on what helpers fail with, also those that find no room
inside the next level. -/
def unguarded (r : Rendering) : (room : Nat) → (chain : List Label) → Renderer :=
  r.rendererBy fun _ act => act

variable {c : Comparison} {r : Rendering} {stores : Store → Store → Prop}
  {excused : Failure → Prop} {results : Text → Text → Prop}

/-- Guarding the left side only changes what is excused anyway. -/
theorem guarded_lockstep_left (hexhausted : ∀ reason, ¬ excused (.exhausted reason))
    (htooDeep : ∀ chain, excused (r.tooDeep chain)) {act act' : SessionM Text}
    (hact : Lockstep stores excused results act act') (chain : List Label) :
    Lockstep stores excused results (r.guarded chain act) act' := by
  intro s t halike
  have houtcomes := hact s t halike
  rw [guarded, Lockstep.run_tryCatch]
  generalize act.run s = left at houtcomes ⊢
  generalize act'.run t = right at houtcomes ⊢
  cases houtcomes with
  | ok hresult halike' => exact .ok hresult halike'
  | @error e s t halike' =>
    cases e with
    | exhausted reason => exact .excused (htooDeep chain)
    | template e => exact .error halike'
    | usage e => exact .error halike'
    | foreign e => exact .error halike'
  | @excused e s right he =>
    cases e with
    | exhausted reason => exact absurd he (hexhausted reason)
    | template e => exact .excused he
    | usage e => exact .excused he
    | foreign e => exact .excused he

/-- Guarding the right side changes nothing, if the left one is excused for finding no room. -/
theorem guarded_lockstep_right (hexhausted : ∀ reason, excused (.exhausted reason))
    {act act' : SessionM Text} (hact : Lockstep stores excused results act act')
    (chain : List Label) : Lockstep stores excused results act (r.guarded chain act') := by
  intro s t halike
  have houtcomes := hact s t halike
  rw [guarded, Lockstep.run_tryCatch]
  generalize act.run s = left at houtcomes ⊢
  generalize act'.run t = right at houtcomes ⊢
  cases houtcomes with
  | ok hresult halike' => exact .ok hresult halike'
  | @error e s t halike' =>
    cases e with
    | exhausted reason => exact .excused (hexhausted reason)
    | template e => exact .error halike'
    | usage e => exact .error halike'
    | foreign e => exact .error halike'
  | excused he => exact .excused he

/-- **All levels are rendered in lockstep**, if what is done around them keeps it. -/
theorem rendererBy_related (hr : r.Related c r)
    {around around' : List Label → SessionM Text → SessionM Text}
    (haround : ∀ chain {act act' : SessionM Text},
      Lockstep c.stores c.excused c.Output act act' →
        Lockstep c.stores c.excused c.Output (around chain act) (around' chain act'))
    (room : Nat) (chain : List Label) :
    (r.rendererBy around room chain).Related c (r.rendererBy around' room chain) := by
  induction room generalizing chain with
  | zero => exact rendererWith_related hr fun label _ _ _ => .throw _
  | succ room ih =>
    refine rendererWith_related hr fun label act act' hact => ?_
    exact haround _ (hact _ _ (ih _))

end Rendering

namespace Environment

variable (env : Environment) (t : Template)

/-- Renders a template without guards. -/
def renderUnguarded (data : Value) : SessionM Text :=
  ((env.rendering t).unguarded env.config.maxDepth []).nodes t.nodes (.ofData data)

/-- The comparison of two renderings of one template for equality. -/
def selfComparison (excused : Failure → Prop) : Comparison :=
  .equal (Store.Alike Eq env.helpers.known) excused (fun _ => True) trivial

variable {excused : Failure → Prop}

/-- A rendering is related to itself, whatever is excused, if helpers pass it on. -/
theorem rendering_related_refl (hpassed : ∀ e, excused e → e.IsPassedOn) :
    (env.rendering t).Related (env.selfComparison excused) (env.rendering t) := by
  have hself : env.Alike Eq excused env := alike_refl (fun _ => rfl) env
  have halike : (env.rendering t).Alike (Store.Alike Eq env.helpers.known) excused
      (env.rendering t) := by
    refine ⟨rfl, rfl, rfl, fun f p => .ofExcept (.refl (fun _ => rfl) _), fun name => ?_, hpassed⟩
    exact (hself.partialNamed_lockstep name).mono fun h k htemplate => congrArg _ htemplate
  exact halike.related

variable {env t}

/-- What is related renders a template in lockstep. -/
theorem nodes_lockstep {excused : Failure → Prop} {a b : Renderer}
    (h : a.Related (env.selfComparison excused) b) (data : Value) :
    Lockstep (Store.Alike Eq env.helpers.known) excused Eq (a.nodes t.nodes (.ofData data))
      (b.nodes t.nodes (.ofData data)) := by
  have hnodes := h.nodes t.nodes (fun n _ => Rendering.admits_equal_true n) (.ofData data)
    (.ofData data) (Frame.related_equal_iff.2 rfl)
  exact hnodes.mono fun _ _ houtput => houtput.1

variable (env t)

/-- A failure of going too deep under the limit of an environment. -/
def TooDeep (e : Failure) : Prop :=
  ∃ chain, e = .template (.recursionLimit env.config.maxDepth chain)

/-- A template is rendered as it is without guards, unless it goes too deep. -/
theorem render_lockstep_unguarded (data : Value) :
    Lockstep (Store.Alike Eq env.helpers.known) env.TooDeep Eq (env.render t data)
      (env.renderUnguarded t data) := by
  have hexhausted : ∀ reason, ¬ env.TooDeep (.exhausted reason) := by
    rintro reason ⟨chain, h⟩
    exact absurd h (by simp)
  have htooDeep : ∀ chain, env.TooDeep ((env.rendering t).tooDeep chain) :=
    fun chain => ⟨chain.reverse, rfl⟩
  have hpassed : ∀ e, env.TooDeep e → e.IsPassedOn := by
    rintro _ ⟨chain, rfl⟩
    exact Failure.isPassedOn_template _
  have hrelated := Rendering.rendererBy_related (rendering_related_refl env t hpassed)
    (fun chain _ _ hact => Rendering.guarded_lockstep_left hexhausted htooDeep hact chain)
    env.config.maxDepth []
  rw [← Rendering.renderer_eq_rendererBy] at hrelated
  exact nodes_lockstep hrelated data

/-- A template is rendered without guards as it is with them, unless a helper finds no room. -/
theorem renderUnguarded_lockstep (data : Value) :
    Lockstep (Store.Alike Eq env.helpers.known) (fun e => ∃ reason, e = .exhausted reason) Eq
      (env.renderUnguarded t data) (env.render t data) := by
  have hpassed : ∀ e : Failure, (∃ reason, e = .exhausted reason) → e.IsPassedOn := by
    rintro _ ⟨reason, rfl⟩
    exact Failure.isPassedOn_exhausted reason
  have hrelated := Rendering.rendererBy_related (rendering_related_refl env t hpassed)
    (fun chain _ _ hact => Rendering.guarded_lockstep_right (r := env.rendering t)
      (fun reason => ⟨reason, rfl⟩) hact chain)
    env.config.maxDepth []
  rw [← Rendering.renderer_eq_rendererBy] at hrelated
  exact nodes_lockstep hrelated data

end Environment

/-! ## What the outermost tags fail with -/

/-- A failure that is not a helper's that finds no room. -/
def Failure.IsReported (e : Failure) : Prop :=
  ∀ reason, e ≠ .exhausted reason

theorem Failure.isReported_template (e : TemplateError) : (Failure.template e).IsReported :=
  fun _ h => Failure.noConfusion h

theorem Failure.isReported_usage (e : UsageError) : (Failure.usage e).IsReported :=
  fun _ h => Failure.noConfusion h

theorem Failure.isReported_foreign (e : ForeignError) : (Failure.foreign e).IsReported :=
  fun _ h => Failure.noConfusion h

/-- Whether a node may call a helper before a level is entered: by an output tag, or by the name and
the parameters of a partial tag. -/
def Node.CallsOutside (known : KnownHelpers) : Node → Prop
  | .block _ _ _ _ _ => False
  | n => n.helperMentions known ≠ []

/-- An operation fails with reported failures only. -/
abbrev SessionM.Reports {α : Type} (x : SessionM α) : Prop :=
  x.FailsOnly (fun _ => True) Failure.IsReported

theorem SessionM.Reports.ofExcept {α : Type} (r : Except TemplateError α) :
    (SessionM.ofExcept r).Reports :=
  Ensures.ofExcept fun e _ => Failure.isReported_template e

namespace Environment

variable (env : Environment)

theorem reports_partialNamed (name : Text) : (env.partialNamed name).Reports := by
  refine (env.partialNamed_loads name).mono ?_
  rintro _ (⟨error, rfl, -⟩ | ⟨error, rfl⟩)
  · exact Failure.isReported_template error
  · exact Failure.isReported_foreign error

end Environment

namespace Rendering

variable {r : Rendering} {partials : PartialRenderer}

theorem reports_resolve (f : Frame) (p : Path) : (r.resolve f p).Reports :=
  .ofExcept _

/-- An expression without calls. -/
theorem reports_evaluate {e : Expr} (he : e.callees = []) (f : Frame) :
    (r.evaluate partials f e).Reports := by
  cases e with
  | path p =>
    rw [evaluate]
    exact reports_resolve f p
  | literal source literal =>
    rw [evaluate]
    exact .pure trivial
  | call source head params named => exact absurd he (by simp [Expr.callees])

theorem reports_bindings {es : List (Text × Expr)} (hes : Expr.calleesOfNamed es = []) (f : Frame) :
    (r.bindings partials f es).Reports := by
  induction es with
  | nil => exact .pure trivial
  | cons entry es ih =>
    rw [Expr.calleesOfNamed, List.append_eq_nil_iff] at hes
    exact (reports_evaluate hes.1 f).andThen fun _ => (ih hes.2).andThen fun _ => .pure trivial

/-- An output tag that does not call a helper. -/
theorem reports_outputValue {c : Call} (hc : c.mentions r.env.helpers.known = []) (f : Frame)
    (position : Position) : (r.outputValue partials f c position).Reports := by
  rw [Call.mentions, List.append_eq_nil_iff, ite_eq_right_iff] at hc
  have hcalls : c.hasArguments = false ∧
      (c.head.isSimple && Table.contains r.env.helpers.known c.head.source) = false := by
    rw [← Bool.or_eq_false_iff, ← Bool.not_eq_true]
    exact fun h => absurd (hc.1 h) (by simp)
  have hnamed : r.helperNamed? c.head = none := by
    have hcontains := hcalls.2
    rw [HelperRegistry.contains_known, Table.contains] at hcontains
    rw [helperNamed?]
    split
    · next hsimple => simpa [hsimple] using hcontains
    · rfl
  rw [outputValue, hcalls.1, hnamed]
  refine (SessionM.Reports.ofExcept _).andThen fun v => ?_
  dsimp only
  split
  · exact (reports_resolve f c.head).andThen fun _ => .pure trivial
  · exact .pure trivial

theorem reports_partialName {e : Expr} (he : e.callees = []) (f : Frame) :
    (r.partialName partials f e).Reports := by
  have hvalue : (r.evaluate partials f e).Reports := reports_evaluate he f
  cases e with
  | literal source literal => exact .pure trivial
  | path p => exact hvalue.andThen fun _ => .pure trivial
  | call source head params named => exact hvalue.andThen fun _ => .pure trivial

theorem reports_partialFrame {c : PartialCall} (hcontext : Expr.calleesOfList c.context.toList = [])
    (hnamed : Expr.calleesOfNamed c.named = []) (f : Frame) :
    (r.partialFrame partials f c).Reports := by
  have hbindings : (r.bindings partials f c.named).Reports := reports_bindings hnamed f
  rw [partialFrame]
  split
  · exact .pure trivial
  · split
    · next e he =>
      rw [he, Option.toList_some, Expr.calleesOfList, List.append_eq_nil_iff] at hcontext
      exact (reports_evaluate hcontext.1 f).andThen fun _ =>
        hbindings.andThen fun _ => .pure trivial
    · exact hbindings.andThen fun _ => .pure trivial

/-- What is guarded fails with reported failures only. -/
theorem reports_guarded (chain : List Label) (act : SessionM Text) :
    (r.guarded chain act).Reports := by
  intro s _
  rw [guarded, Lockstep.run_tryCatch]
  generalize act.run s = outcome
  cases outcome with
  | ok t s' => exact ⟨trivial, trivial⟩
  | error e s' =>
    cases e with
    | exhausted reason => exact ⟨trivial, Failure.isReported_template _⟩
    | template e => exact ⟨trivial, Failure.isReported_template e⟩
    | usage e => exact ⟨trivial, Failure.isReported_usage e⟩
    | foreign e => exact ⟨trivial, Failure.isReported_foreign e⟩

/-- A node that does not call a helper before it enters a level fails with reported failures only,
if entering a level does. -/
theorem reports_node {enter : Entrance} (henter : ∀ label act, (enter label act).Reports)
    (hp : ∀ name f, (partials name f).Reports) {n : Node}
    (hn : ¬ n.CallsOutside r.env.helpers.known) (f : Frame) :
    (r.node partials enter f n).Reports := by
  cases n with
  | text t => exact .pure trivial
  | comment content => exact .pure trivial
  | output escaped c position =>
    exact (reports_outputValue (not_not.1 hn) f position).andThen fun _ => .pure trivial
  | block inverted c body inverse position => exact henter _ _
  | partialTag c indent position =>
    have hcalls := not_not.1 hn
    rw [Node.helperMentions, List.append_eq_nil_iff, List.append_eq_nil_iff] at hcalls
    obtain ⟨⟨hname, hcontext⟩, hnamed⟩ := hcalls
    refine (reports_partialName hname f).andThen fun name => ?_
    refine (reports_partialFrame hcontext hnamed f).andThen fun f => ?_
    exact (hp name f).andThen fun _ => .pure trivial

/-- Nodes that do not call helpers before they enter levels fail with reported failures only. -/
theorem reports_renderer {nodes : List Node}
    (hnodes : ∀ n ∈ nodes, ¬ n.CallsOutside r.env.helpers.known) (room : Nat) (chain : List Label)
    (f : Frame) : ((r.renderer room chain).nodes nodes f).Reports := by
  have hlevel {enter : Entrance} (henter : ∀ label act, (enter label act).Reports) :
      ((r.rendererWith enter).nodes nodes f).Reports := by
    refine .concat fun n hn => reports_node henter (fun name f => ?_) (hnodes n hn) f
    exact (r.env.reports_partialNamed name).andThen fun _ => henter _ _
  cases room with
  | zero => exact hlevel fun label act => .throw (Failure.isReported_template _)
  | succ room => exact hlevel fun label act => reports_guarded _ _

end Rendering

/-! ## What an engine answers -/

namespace Engine

variable {e : Engine}

/-- Renders a compiled template without guards. -/
def renderUnguarded (e : Engine) (h : Handle) (data : Value) : Except Failure Text × Engine :=
  e.perform (e.env.renderUnguarded h.template data)

/-- **A helper that finds no room is reported as going too deep**, unless a tag calls it outside
every section and partial.

An engine renders a template as it would without guards, as long as no helper finds itself without
room.  If one does, so that the rendering without guards comes to that end, then the failure is
reported as going too deep, or else it comes out as it is and one of the outermost tags may call a
helper before it enters a level. -/
theorem render_of_exhausted (hreachable : e.IsReachable) (h : Handle) (data : Value) :
    let result := (e.render h data).1
    let unguarded := (e.renderUnguarded h data).1
    ((∀ reason, unguarded ≠ .error (.exhausted reason)) → result = unguarded) ∧
    ∀ reason, unguarded = .error (.exhausted reason) →
      (∃ chain, result = .error (.template (.recursionLimit e.env.config.maxDepth chain))) ∨
        result = .error (.exhausted reason) ∧
          ∃ n ∈ h.template.nodes, n.CallsOutside e.env.helpers.known := by
  intro result unguarded
  have hsession : e.session.Alike (Store.Alike Eq e.env.helpers.known) e.session :=
    Session.alike_self (fun _ => rfl) hreachable.coherent
  refine ⟨fun hroom => ?_, fun reason hraised => ?_⟩
  · rcases perform_rel (e.env.renderUnguarded_lockstep h.template data) hsession with
      ⟨_, herror, reason, rfl⟩ | hresult
    · exact absurd herror (hroom reason)
    · exact (hresult.eq id).symm
  · rcases perform_rel (e.env.render_lockstep_unguarded h.template data) hsession with
      ⟨_, herror, chain, rfl⟩ | hresult
    · exact .inl ⟨chain, herror⟩
    · have herror : result = .error (.exhausted reason) := (hresult.eq id).trans hraised
      refine .inr ⟨herror, by_contra fun hquiet => ?_⟩
      -- if no outermost tag calls a helper, what comes out is reported
      have hreports : (e.env.render h.template data).Reports :=
        Rendering.reports_renderer (r := e.env.rendering h.template)
          (fun n hn hcalls => hquiet ⟨n, hn, hcalls⟩) _ _ _
      rcases perform_ensures hreports trivial with ⟨output, hok, -⟩ | ⟨failure, hfails, hreported⟩
      · exact absurd (herror.symm.trans hok) (by simp)
      · exact hreported reason (Except.error.inj (hfails.symm.trans herror))

/-- A helper that finds no room, called by a tag inside a section. -/
theorem render_of_exhausted_section :
    let helper : Helper := .custom fun _ => .stop (.exhausted "deep")
    let e := (((create .standard none none { directory := .parse [] }).withStreams 0).follow []
      [.ask (.registerHelper (.text ['h']) helper false)]).2
    let data := Value.map [(.text ['a'], .bool true)]
    ∃ h : Handle, (e.renderUnguarded h data).1 = .error (.exhausted "deep") ∧
      (∀ n ∈ h.template.nodes, ¬ n.CallsOutside e.env.helpers.known) ∧
      ∃ chain, (e.render h data).1 = .error (.template (.recursionLimit 64 chain)) := by
  intro helper e data
  let tag : Node := .output true ⟨⟨['h'], [['h']], 0, false⟩, [], []⟩ ⟨1, 1⟩
  let block : Node := .block false ⟨⟨['a'], [['a']], 0, false⟩, [], []⟩ [tag] none ⟨1, 1⟩
  let h : Handle := ⟨0, ⟨[], [], [block], {}, [], []⟩⟩
  have hreachable : e.IsReachable := ⟨.standard, none, none, _, 0, _, rfl⟩
  have hraised : (e.renderUnguarded h data).1 = .error (.exhausted "deep") := by decide +kernel
  have hquiet : ∀ n ∈ h.template.nodes, ¬ n.CallsOutside e.env.helpers.known := by
    intro n hn
    rw [List.mem_singleton.1 hn]
    exact id
  refine ⟨h, hraised, hquiet, ?_⟩
  rcases (render_of_exhausted hreachable h data).2 _ hraised with htooDeep | ⟨-, n, hn, hcalls⟩
  · exact htooDeep
  · exact absurd hcalls (hquiet n hn)

/-- Called by a tag that stands outside every section and partial, it is not reported. -/
theorem render_eq_exhausted_outermost :
    let helper : Helper := .custom fun _ => .stop (.exhausted "deep")
    let e := (((create .standard none none { directory := .parse [] }).withStreams 0).follow []
      [.ask (.registerHelper (.text ['h']) helper false)]).2
    e.IsReachable ∧ ∃ h : Handle,
      (Template.compile e.env.helpers.known {} inlineName "\x7b\x7bh\x7d\x7d".toList).result =
        .ok h.template ∧
      (e.renderUnguarded h (.map [])).1 = .error (.exhausted "deep") ∧
      ∀ limit chain,
        (e.render h (.map [])).1 ≠ .error (.template (.recursionLimit limit chain)) := by
  intro helper e
  have hrun : (Template.compile e.env.helpers.known {} inlineName
        "\x7b\x7bh\x7d\x7d".toList).result.toOption.map
      (fun t : Template =>
        ((e.renderUnguarded ⟨0, t⟩ (.map [])).1, (e.render ⟨0, t⟩ (.map [])).1)) =
      some (.error (.exhausted "deep"), .error (.exhausted "deep")) := by decide +kernel
  obtain ⟨t, ht, hrun⟩ := Option.map_eq_some_iff.1 hrun
  obtain ⟨hraised, hrender⟩ := Prod.mk.inj hrun
  have hreachable : e.IsReachable := ⟨.standard, none, none, _, 0, _, rfl⟩
  have hunreported : ∀ limit chain,
      (e.render ⟨0, t⟩ (.map [])).1 ≠ .error (.template (.recursionLimit limit chain)) := by
    intro limit chain h
    exact absurd (hrender.symm.trans h) (by simp)
  exact ⟨hreachable, ⟨0, t⟩, Except.toOption_eq_some.1 ht, hraised, hunreported⟩

end Engine

end Stencil
