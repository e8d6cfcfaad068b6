import Stencil.Proofs.Rendering.Comparison

/-!
# Two renderings in lockstep

Two renderings are in lockstep if what they are compared by (`Comparison`) starts out related: the
helpers that may be called, the way values are shown and paths are resolved, and the partials that
may be inserted.  Then nodes that both may render are rendered in lockstep in related frames, and
come to the same output (`Rendering.renderer_related`).

The induction follows the way templates are rendered: over the script of a helper, over expressions,
and over the levels of nesting that are left.  A node itself needs no induction, because what is
inside a section belongs to the next level.
-/

set_option autoImplicit false

namespace Stencil

open SessionM (Lockstep)

/-! ## What is in lockstep -/

section Relations

variable (c : Comparison)

/-- Two renderings are related if they are in lockstep wherever they look at what they go by. -/
structure Rendering.Related (q r : Rendering) : Prop where
  /-- A name that may be called belongs to related helpers, or to none on both sides. -/
  helpers : ∀ isBlock name, c.calls isBlock name → Option.Rel (Helper.Related c isBlock)
    (Table.get? q.env.helpers name) (Table.get? r.env.helpers name)
  /-- Values are escaped in the same way. -/
  escape : q.env.escape = r.env.escape
  /-- What an output tag that may be used shows of a value may come out. -/
  shown : ∀ escaped, c.shows escaped → ∀ v w, c.values v w →
    c.outputs (if escaped then Escaper.value q.env.escape v else v.outputText)
  /-- Helpers are given their parameters in the same way. -/
  stringParams : q.stringParams = r.stringParams
  /-- Paths are resolved in lockstep. -/
  resolve : ∀ {f g : Frame}, f.Related c g → ∀ p : Path,
    Lockstep c.stores c.excused c.values (q.resolve f p) (r.resolve g p)
  /-- Partials that may be inserted are found in lockstep, and may be rendered. -/
  partialNamed : ∀ name, c.inserts name → Lockstep c.stores c.excused
    (fun h k => h.template.nodes = k.template.nodes ∧ c.AdmitsAll h.template.nodes)
    (q.env.partialNamed name) (r.env.partialNamed name)
  /-- Helpers pass on the failures that are excused. -/
  passed : ∀ e, c.excused e → e.IsPassedOn

/-- Partials that may be inserted are rendered in lockstep. -/
def PartialRenderer.Related (a b : PartialRenderer) : Prop :=
  ∀ name, c.inserts name → ∀ f g : Frame, f.Related c g →
    Lockstep c.stores c.excused c.Output (a name f) (b name g)

/-- Nodes that may be rendered, and partials, are rendered in lockstep. -/
structure Renderer.Related (a b : Renderer) : Prop where
  /-- Nodes are. -/
  nodes : ∀ nodes, c.AdmitsAll nodes → ∀ f g : Frame, f.Related c g →
    Lockstep c.stores c.excused c.Output (a.nodes nodes f) (b.nodes nodes g)
  /-- Partials are. -/
  partialNamed : PartialRenderer.Related c a.partialNamed b.partialNamed

/-- The next level is entered in lockstep. -/
def Entrance.Related (a b : Entrance) : Prop :=
  ∀ (label : Label) (act act' : Renderer → SessionM Text),
    (∀ inner inner' : Renderer, inner.Related c inner' →
      Lockstep c.stores c.excused c.Output (act inner) (act' inner')) →
    Lockstep c.stores c.excused c.Output (a label act) (b label act')

/-- Two places of the same call are related if they render their branches in lockstep. -/
structure CallSite.Related (isBlock : Bool) (a b : CallSite) : Prop where
  /-- The name is the same. -/
  name : a.name = b.name
  /-- The place is the same. -/
  position : a.position = b.position
  /-- The frames are related. -/
  frame : a.frame.Related c b.frame
  /-- The left one is a section if it should be. -/
  left : a.branches.isSome = isBlock
  /-- So is the right one. -/
  right : b.branches.isSome = isBlock
  /-- Both have another branch, or none has. -/
  hasInverse : a.branches.any Branches.hasInverse = b.branches.any Branches.hasInverse
  /-- The branches are rendered in lockstep. -/
  renderBranch : ∀ branch (e e' : Entering), e.Related c e' →
    Lockstep c.stores c.excused c.Output (a.renderBranch branch e) (b.renderBranch branch e')

end Relations

variable {c : Comparison}

theorem CallSite.related_of_none (name : Text) (position : Position) {f g : Frame}
    (hf : f.Related c g) :
    CallSite.Related c false ⟨name, position, f, none⟩ ⟨name, position, g, none⟩ :=
  ⟨rfl, rfl, hf, rfl, rfl, rfl, fun _ _ _ _ => .pure c.output_nil⟩

theorem PartialRenderer.Related.branch {partials partials' : PartialRenderer}
    (hp : PartialRenderer.Related c partials partials') {f g : Frame} (hf : f.Related c g)
    {name : Text} (hname : c.inserts name) {context context' : Option Value}
    (hcontext : Option.Rel c.values context context') :
    Lockstep c.stores c.excused c.Output
      (partials name (Entering.frame { context } f))
      (partials' name (Entering.frame { context := context' } g)) := by
  have hentering : Entering.Related c { context } { context := context' } :=
    ⟨hcontext, .nil, .nil⟩
  exact hp name hname _ _ (hentering.frame hf)

/-! ## Helpers -/

section Helpers

variable {q r : Rendering} {partials partials' : PartialRenderer}

/-- **Related scripts are served in lockstep.** -/
theorem Script.run_lockstep (hr : q.Related c r)
    (hp : PartialRenderer.Related c partials partials') {isBlock : Bool} {site site' : CallSite}
    (hsite : site.Related c isBlock site') {α β : Type} {answers : α → β → Prop} {s : Script α}
    {s' : Script β} (hs : s.Related c answers s') {output output' : Text}
    (houtput : c.Output output output') :
    Lockstep c.stores c.excused (fun x y => answers x.1 y.1 ∧ c.Output x.2 y.2)
      (s.run q partials site output) (s'.run r partials' site' output') := by
  induction hs generalizing output output' with
  | done h => exact .pure ⟨h, houtput⟩
  | stop why =>
    simp only [run, hsite.name, hsite.position]
    exact .throw _
  | render branch he h ih =>
    have hbranch := (hsite.renderBranch branch _ _ he).onBehalf hr.passed site.name site.position
    rw [run, run, ← hsite.name, ← hsite.position]
    refine hbranch.bind fun t t' ht => ?_
    obtain ⟨rfl, ht⟩ := ht
    exact ih t ht houtput
  | partialNamed hname hcontext h ih =>
    have hpartial := (hp.branch hsite.frame hname hcontext).onBehalf hr.passed site.name
      site.position
    rw [run, run, ← hsite.name, ← hsite.position]
    refine hpartial.bind fun t t' ht => ?_
    obtain ⟨rfl, ht⟩ := ht
    exact ih t ht houtput
  | resolve path h ih =>
    refine (Lockstep.ofExcept (.refl (fun _ => rfl) _)).bind_eq fun p => ?_
    exact (hr.resolve hsite.frame p).bind fun v w hv => ih v w hv houtput
  | readVariable name h ih => exact ih _ _ (hsite.frame.variableNamed name) houtput
  | newStream hitems h ih =>
    refine (Lockstep.newStream fun serial => c.stream serial hitems).bind fun v w hv => ?_
    exact ih v w hv houtput
  | read serial hitems count h ih =>
    exact (Lockstep.read serial hitems count).bind fun vs ws hvs => ih vs ws hvs houtput
  | write hwrite h ih => exact ih (houtput.append ⟨rfl, hwrite⟩)
  | written h ih =>
    obtain ⟨rfl, hwritten⟩ := houtput
    exact ih _ hwritten ⟨rfl, hwritten⟩
  | log level message h ih => exact (Lockstep.record _).bind_eq fun _ => ih houtput

theorem CallSite.Related.invocation {isBlock : Bool} {site site' : CallSite}
    (h : site.Related c isBlock site') (stringParams : Bool) {params params' : List Value}
    (hparams : List.Forall₂ c.values params params') {named named' : Table Value}
    (hnamed : Table.Related c.values named named') :
    (site.invocation stringParams params named).Related c
      (site'.invocation stringParams params' named') := by
  refine ⟨h.name, ?_, h.frame.value, ?_, hnamed, h.left.trans h.right.symm, h.hasInverse, rfl⟩
  · cases hparams with
    | nil => exact h.frame.value
    | cons hv hrest => exact hv
  · cases hparams with
    | nil => exact .nil
    | cons hv hrest => exact hrest

theorem Rendering.call_lockstep (hr : q.Related c r)
    (hp : PartialRenderer.Related c partials partials') {isBlock : Bool} {site site' : CallSite}
    (hsite : site.Related c isBlock site') {helper helper' : Helper}
    (hhelper : helper.Related c isBlock helper') {params params' : List Value}
    (hparams : List.Forall₂ c.values params params') {named named' : Table Value}
    (hnamed : Table.Related c.values named named') :
    Lockstep c.stores c.excused (fun x y => c.Answers isBlock x.1 y.1 ∧ c.Output x.2 y.2)
      (q.call partials site helper params named)
      (r.call partials' site' helper' params' named') := by
  have hcall := hsite.invocation q.stringParams hparams hnamed
  rw [Rendering.call, Rendering.call, ← hr.stringParams]
  exact Script.run_lockstep hr hp hsite (hhelper _ _ hcall hsite.left) c.output_nil

theorem Rendering.Related.helperNamed? (hr : q.Related c r) {isBlock : Bool} {p : Path}
    (hcalls : p.isSimple = true → c.calls isBlock p.source) :
    Option.Rel (Helper.Related c isBlock) (q.helperNamed? p) (r.helperNamed? p) := by
  rw [Rendering.helperNamed?, Rendering.helperNamed?]
  by_cases hsimple : p.isSimple = true
  · rw [if_pos hsimple, if_pos hsimple]
    exact hr.helpers isBlock p.source (hcalls hsimple)
  · rw [if_neg hsimple, if_neg hsimple]
    exact .none

theorem Rendering.helperFor_lockstep (hr : q.Related c r) {isBlock : Bool} {p : Path}
    (hcalls : p.isSimple = true → c.calls isBlock p.source) (position : Position) :
    Lockstep c.stores c.excused (Helper.Related c isBlock) (q.helperFor p position)
      (r.helperFor p position) := by
  have hnamed := hr.helperNamed? hcalls
  have hfallback := hr.helpers isBlock _ (c.fallback isBlock)
  rw [Rendering.helperFor, Rendering.helperFor]
  generalize q.helperNamed? p = left at hnamed ⊢
  generalize r.helperNamed? p = right at hnamed ⊢
  cases hnamed with
  | some hhelper => exact .pure hhelper
  | none =>
    dsimp only
    generalize Table.get? q.env.helpers HelperRegistry.fallbackName = left at hfallback ⊢
    generalize Table.get? r.env.helpers HelperRegistry.fallbackName = right at hfallback ⊢
    cases hfallback with
    | some hhelper => exact (Lockstep.record _).bind_eq fun _ => .pure hhelper
    | none => exact .throw _

end Helpers

/-! ## Expressions -/

section Expressions

variable {q r : Rendering} {partials partials' : PartialRenderer}

namespace Rendering

mutual

/-- **An expression is evaluated in lockstep**, if it calls what may be called. -/
theorem evaluate_lockstep (hr : q.Related c r)
    (hp : PartialRenderer.Related c partials partials') {f g : Frame} (hf : f.Related c g) :
    ∀ e : Expr, (∀ name ∈ e.callees, c.calls false name) →
      Lockstep c.stores c.excused c.values (q.evaluate partials f e) (r.evaluate partials' g e)
  | .path p, _ => by
    rw [evaluate, evaluate]
    exact hr.resolve hf p
  | .literal source literal, _ => by
    rw [evaluate, evaluate]
    exact .pure (c.literal literal)
  | .call source head params named, hcalls => by
    have hhead : c.calls false head.source :=
      hcalls _ (by rw [Expr.callees]; exact List.mem_cons_self)
    have hparams : ∀ name ∈ Expr.calleesOfList params, c.calls false name := fun name hname =>
      hcalls name (by
        rw [Expr.callees]
        exact List.mem_cons_of_mem _ (List.mem_append_left _ hname))
    have hnamed : ∀ name ∈ Expr.calleesOfNamed named, c.calls false name := fun name hname =>
      hcalls name (by
        rw [Expr.callees]
        exact List.mem_cons_of_mem _ (List.mem_append_right _ hname))
    rw [evaluate, evaluate]
    refine (helperFor_lockstep hr (fun _ => hhead) .none).bind fun helper helper' hhelper => ?_
    refine (arguments_lockstep hr hp hf params hparams).bind fun vs ws hvs => ?_
    refine (namedArguments_lockstep hr hp hf named hnamed).bind fun vs' ws' hvs' => ?_
    have hsite := CallSite.related_of_none head.source .none hf
    refine (call_lockstep hr hp hsite hhelper hvs (Table.Related.ofList hvs')).bind ?_
    intro x y hxy
    exact .pure hxy.1.1

theorem arguments_lockstep (hr : q.Related c r)
    (hp : PartialRenderer.Related c partials partials') {f g : Frame} (hf : f.Related c g) :
    ∀ es : List Expr, (∀ name ∈ Expr.calleesOfList es, c.calls false name) →
      Lockstep c.stores c.excused (List.Forall₂ c.values) (q.arguments partials f es)
        (r.arguments partials' g es)
  | [], _ => by
    rw [arguments, arguments]
    exact .pure .nil
  | e :: es, hcalls => by
    have hfirst : ∀ name ∈ e.callees, c.calls false name := fun name hname =>
      hcalls name (by rw [Expr.calleesOfList]; exact List.mem_append_left _ hname)
    have hothers : ∀ name ∈ Expr.calleesOfList es, c.calls false name := fun name hname =>
      hcalls name (by rw [Expr.calleesOfList]; exact List.mem_append_right _ hname)
    have hrest := arguments_lockstep hr hp hf es hothers
    rw [arguments, arguments, hr.stringParams]
    split
    · have hvalue := c.asWritten e
      exact Lockstep.bind (.pure hvalue) fun v w hv => hrest.bind fun vs ws hvs =>
        .pure (.cons hv hvs)
    · have hvalue := evaluate_lockstep hr hp hf e hfirst
      exact hvalue.bind fun v w hv => hrest.bind fun vs ws hvs => .pure (.cons hv hvs)

theorem namedArguments_lockstep (hr : q.Related c r)
    (hp : PartialRenderer.Related c partials partials') {f g : Frame} (hf : f.Related c g) :
    ∀ es : List (Text × Expr), (∀ name ∈ Expr.calleesOfNamed es, c.calls false name) →
      Lockstep c.stores c.excused (Table.Related c.values) (q.namedArguments partials f es)
        (r.namedArguments partials' g es)
  | [], _ => by
    rw [namedArguments, namedArguments]
    exact .pure .nil
  | (name, e) :: es, hcalls => by
    have hfirst : ∀ name ∈ e.callees, c.calls false name := fun name hname =>
      hcalls name (by rw [Expr.calleesOfNamed]; exact List.mem_append_left _ hname)
    have hothers : ∀ name ∈ Expr.calleesOfNamed es, c.calls false name := fun name hname =>
      hcalls name (by rw [Expr.calleesOfNamed]; exact List.mem_append_right _ hname)
    have hrest := namedArguments_lockstep hr hp hf es hothers
    rw [namedArguments, namedArguments, hr.stringParams]
    split
    · have hvalue := c.asWritten e
      exact Lockstep.bind (.pure hvalue) fun v w hv => hrest.bind fun vs ws hvs =>
        .pure (.cons ⟨rfl, hv⟩ hvs)
    · have hvalue := evaluate_lockstep hr hp hf e hfirst
      exact hvalue.bind fun v w hv => hrest.bind fun vs ws hvs => .pure (.cons ⟨rfl, hv⟩ hvs)

end

/-- A call of a tag is made in lockstep, if it may be made. -/
theorem callAt_lockstep (hr : q.Related c r)
    (hp : PartialRenderer.Related c partials partials') {f g : Frame} {isBlock : Bool}
    {call : Call} (hcall : c.AdmitsCall isBlock call) (position : Position)
    {branches branches' : Option Branches}
    (hsite : CallSite.Related c isBlock ⟨call.head.source, position, f, branches⟩
      ⟨call.head.source, position, g, branches'⟩) :
    Lockstep c.stores c.excused (fun x y => c.Answers isBlock x.1 y.1 ∧ c.Output x.2 y.2)
      (q.callAt partials f call position branches)
      (r.callAt partials' g call position branches') := by
  rw [callAt, callAt]
  refine (helperFor_lockstep hr hcall.head position).bind fun helper helper' hhelper => ?_
  refine (arguments_lockstep hr hp hsite.frame _ hcall.params).bind fun vs ws hvs => ?_
  refine (namedArguments_lockstep hr hp hsite.frame _ hcall.named).bind fun vs' ws' hvs' => ?_
  exact call_lockstep hr hp hsite hhelper hvs (Table.Related.ofList hvs')

theorem bindings_lockstep (hr : q.Related c r)
    (hp : PartialRenderer.Related c partials partials') {f g : Frame} (hf : f.Related c g)
    {es : List (Text × Expr)} (hcalls : ∀ name ∈ Expr.calleesOfNamed es, c.calls false name) :
    Lockstep c.stores c.excused (Table.Related c.values) (q.bindings partials f es)
      (r.bindings partials' g es) := by
  induction es with
  | nil => exact .pure .nil
  | cons entry es ih =>
    obtain ⟨name, e⟩ := entry
    rw [Expr.calleesOfNamed] at hcalls
    have hvalue := evaluate_lockstep hr hp hf e fun name hname =>
      hcalls name (List.mem_append_left _ hname)
    have hrest := ih fun name hname => hcalls name (List.mem_append_right _ hname)
    rw [bindings, bindings]
    exact hvalue.bind fun v w hv => hrest.bind fun vs ws hvs => .pure (.cons ⟨rfl, hv⟩ hvs)

end Rendering

end Expressions

/-! ## Nodes -/

section Nodes

variable {q r : Rendering}

theorem Branches.related_ofNodes {nodes nodes' : List Node → Frame → SessionM Text}
    (h : ∀ ns, c.AdmitsAll ns → ∀ f g : Frame, f.Related c g →
      Lockstep c.stores c.excused c.Output (nodes ns f) (nodes' ns g))
    (name : Text) (position : Position) {f g : Frame} (hf : f.Related c g)
    {body inverse : Option (List Node)} (hbody : c.AdmitsAll (body.getD []))
    (hinverse : c.AdmitsAll (inverse.getD [])) :
    CallSite.Related c true ⟨name, position, f, some (.ofNodes nodes body inverse)⟩
      ⟨name, position, g, some (.ofNodes nodes' body inverse)⟩ := by
  refine ⟨rfl, rfl, hf, rfl, rfl, rfl, fun branch e e' he => ?_⟩
  cases branch with
  | body => exact h _ hbody _ _ (he.frame hf)
  | inverse => exact h _ hinverse _ _ (he.frame hf)

namespace Rendering

section Tags

variable {partials partials' : PartialRenderer}

/-- The value of an output tag is found in lockstep. -/
theorem outputValue_lockstep (hr : q.Related c r)
    (hp : PartialRenderer.Related c partials partials') {f g : Frame} (hf : f.Related c g)
    {call : Call} (hcall : c.AdmitsCall false call) (position : Position) :
    Lockstep c.stores c.excused (fun x y => c.values x.1 y.1 ∧ c.Output x.2 y.2)
      (q.outputValue partials f call position) (r.outputValue partials' g call position) := by
  have hsite := CallSite.related_of_none call.head.source position hf
  rw [outputValue, outputValue]
  split
  · exact (callAt_lockstep hr hp hcall position hsite).mono fun x y hxy => ⟨hxy.1.1, hxy.2⟩
  · refine (Lockstep.ofExcept (hf.resolve call.head false)).bind fun v w hv => ?_
    have hsimilar := c.similar hv
    cases hsimilar with
    | undefined =>
      have hnamed := hr.helperNamed? hcall.head
      dsimp only
      generalize q.helperNamed? call.head = left at hnamed ⊢
      generalize r.helperNamed? call.head = right at hnamed ⊢
      cases hnamed with
      | some hhelper =>
        exact (call_lockstep hr hp hsite hhelper .nil .nil).mono fun x y hxy => ⟨hxy.1.1, hxy.2⟩
      | none => exact (hr.resolve hf call.head).bind fun v w hv => .pure ⟨hv, c.output_nil⟩
    | _ => exact .pure ⟨hv, c.output_nil⟩

theorem outputTag_lockstep (hr : q.Related c r)
    (hp : PartialRenderer.Related c partials partials') {f g : Frame} (hf : f.Related c g)
    {escaped : Bool} (hshows : c.shows escaped) {call : Call} (hcall : c.AdmitsCall false call)
    (position : Position) :
    Lockstep c.stores c.excused c.Output (q.outputTag partials f escaped call position)
      (r.outputTag partials' g escaped call position) := by
  rw [outputTag, outputTag, ← hr.escape]
  refine (outputValue_lockstep hr hp hf hcall position).bind fun x y hxy => ?_
  obtain ⟨hvalue, hwritten⟩ := hxy
  refine .pure (hwritten.append ⟨?_, hr.shown escaped hshows _ _ hvalue⟩)
  rw [Value.outputText_eq c.isSimulation hvalue, Escaper.value_eq c.isSimulation hvalue]

/-- The name of a partial is found in lockstep, and it is one that may be inserted. -/
theorem partialName_lockstep (hr : q.Related c r)
    (hp : PartialRenderer.Related c partials partials') {f g : Frame} (hf : f.Related c g)
    {call : PartialCall} (hcall : c.AdmitsPartial call) :
    Lockstep c.stores c.excused (fun name name' => name = name' ∧ c.inserts name)
      (q.partialName partials f call.name) (r.partialName partials' g call.name) := by
  have hname := evaluate_lockstep hr hp hf call.name hcall.name
  have hinserts := hcall.inserts
  simp only [PartialCall.MayInsert, PartialCall.literalName?] at hinserts
  generalize call.name = e at hname hinserts
  cases e with
  | literal source literal => exact .pure ⟨rfl, hinserts _ fun name h => Option.some.inj h⟩
  | path p =>
    refine hname.bind fun v w hv => ?_
    have htext := Value.outputText_eq c.isSimulation hv
    exact .pure ⟨htext, hinserts _ fun name h => absurd h (by simp)⟩
  | call source head params named =>
    refine hname.bind fun v w hv => ?_
    have htext := Value.outputText_eq c.isSimulation hv
    exact .pure ⟨htext, hinserts _ fun name h => absurd h (by simp)⟩

theorem partialFrame_lockstep (hr : q.Related c r)
    (hp : PartialRenderer.Related c partials partials') {f g : Frame} (hf : f.Related c g)
    {call : PartialCall} (hcall : c.AdmitsPartial call) :
    Lockstep c.stores c.excused (Frame.Related c) (q.partialFrame partials f call)
      (r.partialFrame partials' g call) := by
  have hcontext := hcall.context
  rw [partialFrame, partialFrame]
  split
  · exact .pure hf
  · have hbindings := bindings_lockstep hr hp hf hcall.named
    generalize call.context = context at hcontext
    cases context with
    | none =>
      exact Lockstep.bind (.pure hf.value) fun v w hv => hbindings.bind fun vs ws hvs =>
        .pure (hf.push hv .nil (Table.Related.ofList hvs))
    | some e =>
      have hvalue := evaluate_lockstep hr hp hf e (hcontext e rfl)
      exact hvalue.bind fun v w hv => hbindings.bind fun vs ws hvs =>
        .pure (hf.push hv .nil (Table.Related.ofList hvs))

end Tags

/-! ### Sections -/

theorem plainSection_lockstep {inner inner' : Renderer} (hinner : inner.Related c inner')
    {f g : Frame} (hf : f.Related c g) {body inverse : List Node} (hbody : c.AdmitsAll body)
    (hinverse : c.AdmitsAll inverse) {v w : Value} (hv : c.values v w) :
    Lockstep c.stores c.excused c.Output (plainSection inner f body inverse v)
      (plainSection inner' g body inverse w) := by
  have hitems := (c.similar hv).items?_rel
  have hscope : Lockstep c.stores c.excused c.Output
      (if v.isTruthy false then inner.nodes body (f.push v [] []) else inner.nodes inverse f)
      (if w.isTruthy false then inner'.nodes body (g.push w [] [])
        else inner'.nodes inverse g) := by
    rw [(c.similar hv).isTruthy_eq false]
    split
    · exact hinner.nodes body hbody _ _ (hf.push hv .nil .nil)
    · exact hinner.nodes inverse hinverse _ _ hf
  unfold plainSection
  generalize v.items? = left at hitems ⊢
  generalize w.items? = right at hitems ⊢
  cases hitems with
  | some hitems =>
    cases hitems with
    | nil => exact hinner.nodes inverse hinverse _ _ hf
    | cons hfirst hrest =>
      refine Lockstep.concat c.output_nil Comparison.Output.append
        (Entering.related_ofItems (.cons hfirst hrest)) fun e _ e' he => ?_
      exact hinner.nodes body hbody _ _ (he.frame hf)
  | none =>
    have hsimilar := c.similar hv
    cases hsimilar with
    | bool b =>
      cases b with
      | true => exact hinner.nodes body hbody _ _ hf
      | false => exact hscope
    | _ => exact hscope

theorem plainInverted_lockstep {inner inner' : Renderer} (hinner : inner.Related c inner')
    {f g : Frame} (hf : f.Related c g) {body inverse : List Node} (hbody : c.AdmitsAll body)
    (hinverse : c.AdmitsAll inverse) {v w : Value} (hv : c.values v w) :
    Lockstep c.stores c.excused c.Output (plainInverted inner f body inverse v)
      (plainInverted inner' g body inverse w) := by
  rw [plainInverted, plainInverted, (c.similar hv).isTruthy_eq false]
  split
  · exact hinner.nodes inverse hinverse _ _ hf
  · exact hinner.nodes body hbody _ _ hf

/-- What is inside a section is rendered in lockstep. -/
theorem insideBlock_lockstep (hr : q.Related c r) {inner inner' : Renderer}
    (hinner : inner.Related c inner') {f g : Frame} (hf : f.Related c g) (inverted : Bool)
    {call : Call} (hcall : c.AdmitsCall true call) {body : List Node} (hbody : c.AdmitsAll body)
    {inverse : Option (List Node)} (hinverse : c.AdmitsAll (inverse.getD []))
    (position : Position) :
    Lockstep c.stores c.excused c.Output
      (q.insideBlock inner f inverted call body inverse position)
      (r.insideBlock inner' g inverted call body inverse position) := by
  have hnamed : (q.helperNamed? call.head).isSome = (r.helperNamed? call.head).isSome := by
    have h := hr.helperNamed? hcall.head
    generalize q.helperNamed? call.head = left at h ⊢
    generalize r.helperNamed? call.head = right at h ⊢
    cases h <;> rfl
  rw [insideBlock, insideBlock, hnamed]
  split
  · refine Lockstep.bind ?_ fun x y (hxy : c.Answers true x.1 y.1 ∧ c.Output x.2 y.2) => ?_
    · cases inverted with
      | true =>
        exact callAt_lockstep hr hinner.partialNamed hcall position
          (Branches.related_ofNodes hinner.nodes _ _ hf hinverse hbody)
      | false =>
        exact callAt_lockstep hr hinner.partialNamed hcall position
          (Branches.related_ofNodes hinner.nodes _ _ hf hbody hinverse)
    · obtain ⟨⟨hvalue, houtput⟩, hwritten⟩ := hxy
      have htext := Value.outputText_eq c.isSimulation hvalue
      exact .pure (hwritten.append ⟨htext, houtput rfl⟩)
  · refine (hr.resolve hf call.head).bind fun v w hv => ?_
    cases inverted with
    | true => exact plainInverted_lockstep hinner hf hbody hinverse hv
    | false => exact plainSection_lockstep hinner hf hbody hinverse hv

/-- **A node is rendered in lockstep**, if it may be rendered. -/
theorem node_lockstep (hr : q.Related c r) {partials partials' : PartialRenderer}
    (hp : PartialRenderer.Related c partials partials') {enter enter' : Entrance}
    (henter : Entrance.Related c enter enter') {f g : Frame} (hf : f.Related c g) (n : Node)
    (hn : ∀ m ∈ n.descendants, c.Admits m) :
    Lockstep c.stores c.excused c.Output (q.node partials enter f n)
      (r.node partials' enter' g n) := by
  have hself : c.Admits n := hn n n.mem_descendants_self
  cases n with
  | text t => exact .pure ⟨rfl, hself⟩
  | comment content => exact .pure c.output_nil
  | output escaped call position => exact outputTag_lockstep hr hp hf hself.1 hself.2 position
  | block inverted call body inverse position =>
    have hbody : c.AdmitsAll body := fun m hm =>
      hn m (by
        rw [Node.descendants]
        exact List.mem_cons_of_mem _ (List.mem_append_left _ hm))
    have hinverse : c.AdmitsAll (inverse.getD []) := by
      cases inverse with
      | none => exact c.admitsAll_nil
      | some inverse =>
        exact fun m hm => hn m (by
          rw [Node.descendants]
          exact List.mem_cons_of_mem _ (List.mem_append_right _ hm))
    exact henter _ _ _ fun inner inner' hinner =>
      insideBlock_lockstep hr hinner hf inverted hself hbody hinverse position
  | partialTag call indent position =>
    obtain ⟨hcall, hindent⟩ := hself
    rw [node, node]
    refine (partialName_lockstep hr hp hf hcall).bind fun name name' hname => ?_
    obtain ⟨rfl, hinserts⟩ := hname
    refine (partialFrame_lockstep hr hp hf hcall).bind fun f g hf => ?_
    refine (hp name hinserts f g hf).bind fun t t' ht => ?_
    obtain ⟨rfl, ht⟩ := ht
    exact .pure ⟨rfl, hindent t ht⟩

/-! ## Levels of nesting -/

/-- A level is rendered in lockstep if the next one is entered in lockstep. -/
theorem rendererWith_related (hr : q.Related c r) {enter enter' : Entrance}
    (henter : Entrance.Related c enter enter') :
    (q.rendererWith enter).Related c (r.rendererWith enter') := by
  have hpartial : PartialRenderer.Related c (q.rendererWith enter).partialNamed
      (r.rendererWith enter').partialNamed := by
    intro name hname f g hf
    refine (hr.partialNamed name hname).bind fun h k hnodes => ?_
    refine henter _ _ _ fun inner inner' hinner => ?_
    rw [← hnodes.1]
    exact hinner.nodes _ hnodes.2 f g hf
  refine ⟨fun nodes hnodes f g hf => ?_, hpartial⟩
  refine Lockstep.concat c.output_nil Comparison.Output.append
    (List.forall₂_same.2 fun n _ => rfl) fun n hn m hnm => ?_
  subst hnm
  exact node_lockstep hr hpartial henter hf n (hnodes.of_mem hn)

/-- Where two renderings are and how many levels they may still enter: inside the same levels, with
as many to enter under the same limit, or the left one with fewer, and then it is excused for going
too deep. -/
def RoomAlike (excused : Failure → Prop) (q r : Rendering) (room room' : Nat)
    (chain chain' : List Label) : Prop :=
  (q.env.config.maxDepth = r.env.config.maxDepth ∧ room = room' ∧ chain = chain') ∨
    room ≤ room' ∧ ∀ limit chain, excused (.template (.recursionLimit limit chain))

section Room

variable {room room' : Nat} {chain chain' : List Label}

theorem RoomAlike.tooDeep_lockstep (h : RoomAlike c.excused q r room room' chain chain')
    (label : Label) :
    Lockstep c.stores c.excused c.Output (throw (q.tooDeep (label :: chain)) : SessionM Text)
      (throw (r.tooDeep (label :: chain'))) := by
  rcases h with ⟨hdepth, -, rfl⟩ | ⟨-, hlimit⟩
  · rw [tooDeep, tooDeep, hdepth]
    exact .throw _
  · exact .of_excused (hlimit _ _) _

/-- Inside one more level both have one level less to enter. -/
theorem RoomAlike.inside {excused : Failure → Prop}
    (h : RoomAlike excused q r (room + 1) (room' + 1) chain chain') (label : Label) :
    RoomAlike excused q r room room' (label :: chain) (label :: chain') := by
  rcases h with ⟨hdepth, hroom, rfl⟩ | ⟨hroom, hlimit⟩
  · exact .inl ⟨hdepth, Nat.succ.inj hroom, rfl⟩
  · exact .inr ⟨Nat.le_of_succ_le_succ hroom, hlimit⟩

/-- Running out of room is dealt with in lockstep. -/
theorem guarded_lockstep (hexhausted : ∀ reason, ¬ c.excused (.exhausted reason))
    (hroom : RoomAlike c.excused q r room room' chain chain') (label : Label)
    {act act' : SessionM Text} (hact : Lockstep c.stores c.excused c.Output act act') :
    Lockstep c.stores c.excused c.Output (q.guarded (label :: chain) act)
      (r.guarded (label :: chain') act') := by
  rw [guarded, guarded]
  refine hact.tryCatch (fun e => ?_) fun e he => ?_
  · cases e with
    | exhausted reason => exact hroom.tooDeep_lockstep label
    | template e => exact .throw _
    | usage e => exact .throw _
    | foreign e => exact .throw _
  · cases e with
    | exhausted reason => exact absurd he (hexhausted reason)
    | template e => rfl
    | usage e => rfl
    | foreign e => rfl

/-- **All levels are rendered in lockstep**, if no helper is excused for finding no room. -/
theorem renderer_related (hr : q.Related c r)
    (hexhausted : ∀ reason, ¬ c.excused (.exhausted reason))
    (hroom : RoomAlike c.excused q r room room' chain chain') :
    (q.renderer room chain).Related c (r.renderer room' chain') := by
  induction room generalizing room' chain chain' with
  | zero =>
    cases room' with
    | zero => exact rendererWith_related hr fun label _ _ _ => hroom.tooDeep_lockstep label
    | succ room' =>
      refine rendererWith_related hr fun label act act' hact => ?_
      rcases hroom with ⟨-, hroom, -⟩ | ⟨-, hlimit⟩
      · exact absurd hroom (by simp)
      · exact .of_excused (hlimit _ _) _
  | succ room ih =>
    cases room' with
    | zero =>
      rcases hroom with ⟨-, hroom, -⟩ | ⟨hroom, -⟩
      · exact absurd hroom (by simp)
      · exact absurd hroom (by simp)
    | succ room' =>
      refine rendererWith_related hr fun label act act' hact => ?_
      exact guarded_lockstep hexhausted hroom label (hact _ _ (ih (hroom.inside label)))

end Room

end Rendering

end Nodes

end Stencil
