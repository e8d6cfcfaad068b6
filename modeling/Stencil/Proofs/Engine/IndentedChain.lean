import Stencil.Proofs.Engine.Depth
import Stencil.Proofs.Engine.Exhaustion
import Stencil.Proofs.Engine.Loading
import Stencil.Proofs.Expr.Printing
import Stencil.Proofs.Node.LonePartial
import Stencil.Proofs.Text.Indentation

/-!
# Partials that only insert another partial

A template that is nothing but a partial tag renders to what the partial does, with the indentation
of the tag.  If that partial is nothing but a partial tag again, and so on, every tag indents what
the ones behind it have indented already, and all of that is one indentation
(`Text.indentLines_indentLines`).

`Rendering.follow` is the way down such a chain without lookups and without indentation: the scopes
that the tags set up for their partials, the levels that are entered, and the nodes at the end.  A
rendering of the chain goes in lockstep with it (`Rendering.follow_lockstep`).  The levels are what
a chain costs: one that is longer than the limit is refused, and the nodes at the end of any other
have so many levels less to go down.
-/

set_option autoImplicit false

namespace Stencil

open SessionM (Lockstep Outcomes)

/-- A template that is nothing but a partial tag. -/
structure Link where
  /-- What the tag is called with. -/
  call : PartialCall
  /-- The name of the partial. -/
  name : Text
  /-- What stands before the tag on its line. -/
  indent : Text

/-- The level that the partial of a tag is rendered in. -/
def Link.label (link : Link) : Label :=
  .partialNamed link.name

/-- A chain of templates that are nothing but a partial tag, the first of them given by its nodes.
Each tag names the next template and is indented by spaces and tabs; after the last tag there are
any nodes. -/
inductive Environment.LeadsTo (env : Environment) (partials : Table Handle) :
    List Node → List Link → List Node → Prop
  /-- The chain is at its end. -/
  | last (nodes : List Node) : LeadsTo env partials nodes [] nodes
  /-- A tag inserts the rest of the chain. -/
  | tag (link : Link) {links : List Link} {t : Template} {nodes : List Node} (position : Position)
      (hname : link.call.literalName? = some link.name)
      (hindent : ∀ c ∈ link.indent, isIndentChar c = true)
      (hinserts : env.insertion? partials link.name = some t)
      (hrest : LeadsTo env partials t.nodes links nodes) :
      LeadsTo env partials [.partialTag link.call link.indent position] (link :: links) nodes

/-- Whether a partial tag leaves its partial in the scope that the tag stands in. -/
def PartialCall.IsPlain (call : PartialCall) : Prop :=
  call.context = none ∧ call.named = []

/-! ## Down the chain -/

namespace Rendering

/-- Renders some nodes at the end of a chain, in the scopes and at the level that the chain leads
to.  Nothing is looked up and nothing is indented. -/
def follow (r : Rendering) (nodes : List Node) :
    List Link → (room : Nat) → (chain : List Label) → Frame → SessionM Text
  | [], room, chain, f => (r.renderer room chain).nodes nodes f
  | link :: _, 0, chain, f => do
    let _ ← r.partialFrame (r.renderer 0 chain).partialNamed f link.call
    throw (r.tooDeep (link.label :: chain))
  | link :: links, room + 1, chain, f => do
    let f ← r.partialFrame (r.renderer (room + 1) chain).partialNamed f link.call
    r.guarded (link.label :: chain) (r.follow nodes links room (link.label :: chain) f)

variable {r : Rendering}

theorem partialName_of_literalName? {partials : PartialRenderer} {f : Frame} {call : PartialCall}
    {name : Text} (h : call.literalName? = some name) :
    r.partialName partials f call.name = pure name := by
  rw [PartialCall.literalName?] at h
  split at h
  · next source value hname =>
    rw [hname, partialName, Option.some.inj h]
  · exact nomatch h

/-- A level renders a tag that names its partial by setting up the scope, looking the partial up and
indenting what the next level makes of it. -/
theorem rendererWith_nodes_partialTag {enter : Entrance} {call : PartialCall} {name : Text}
    (hname : call.literalName? = some name) (indent : Text) (position : Position) (f : Frame) :
    (r.rendererWith enter).nodes [.partialTag call indent position] f = do
      let f ← r.partialFrame (r.rendererWith enter).partialNamed f call
      let k ← r.env.partialNamed name
      let output ← enter (.partialNamed name) fun inner => inner.nodes k.template.nodes f
      return Text.indentLines indent output := by
  show SessionM.concat (r.node (r.rendererWith enter).partialNamed enter f) [_] = _
  rw [SessionM.concat_singleton, node, partialName_of_literalName? hname, pure_bind]
  simp only [rendererWith, bind_assoc]

theorem partialFrame_of_isPlain {partials : PartialRenderer} {f : Frame} {call : PartialCall}
    (h : call.IsPlain) : r.partialFrame partials f call = pure f := by
  rw [partialFrame, h.1, h.2]
  rfl

/-- Guarding both sides keeps them in lockstep, if no failure is excused. -/
theorem guarded_lockstep_same {stores : Store → Store → Prop} {results : Text → Text → Prop}
    {act act' : SessionM Text} (hact : Lockstep stores (fun _ => False) results act act')
    (chain : List Label) :
    Lockstep stores (fun _ => False) results (r.guarded chain act) (r.guarded chain act') := by
  rw [guarded, guarded]
  refine hact.tryCatch (fun e => ?_) fun _ he => he.elim
  cases e with
  | exhausted reason => exact .throw _
  | template e => exact .throw _
  | usage e => exact .throw _
  | foreign e => exact .throw _

/-- Guarding is done by the innermost guard alone. -/
theorem guarded_guarded (chain inner : List Label) (act : SessionM Text) :
    r.guarded chain (r.guarded inner act) = r.guarded inner act := by
  funext s
  show (r.guarded chain (r.guarded inner act)).run s = (r.guarded inner act).run s
  rw [guarded, guarded, Lockstep.run_tryCatch, Lockstep.run_tryCatch]
  cases act.run s with
  | ok t s => rfl
  | error e s => cases e <;> rfl

end Rendering

namespace Environment

variable {env : Environment} {partials : Table Handle}

/-- Looking up a partial that there is cannot be told from doing nothing. -/
theorem partialNamed_lockstep_pure {name : Text} {t : Template}
    (h : env.insertion? partials name = some t) :
    Lockstep (env.BothInsert partials) (fun _ => False) (fun k _ => k.template = t)
      (env.partialNamed name) (pure ()) := by
  intro s s' halike
  have hfinds := partialNamed_spec name halike.stores.1
  generalize (env.partialNamed name).run s = outcome at hfinds ⊢
  cases outcome with
  | ok k u =>
    have hnothing : env.Finds partials [] s' s' := ⟨halike.stores.2, rfl, rfl, rfl⟩
    exact .ok (Option.some.inj (hfinds.1.symm.trans h)) (hfinds.2.alike hnothing halike)
  | error e u => exact absurd (hfinds.1.symm.trans h) (by simp)

/-- What a tag inserts is looked up unnoticed, and put behind the indentation of the tag. -/
theorem inserted_lockstep {name : Text} {t : Template} (h : env.insertion? partials name = some t)
    {indent inner : Text} (hinner : ∀ c ∈ inner, isIndentChar c = true)
    {inside : Handle → SessionM Text} {plainly : SessionM Text}
    (hinside : ∀ k, k.template = t → Lockstep (env.BothInsert partials) (fun _ => False)
      (fun output plain => output = Text.indentLines inner plain) (inside k) plainly) :
    Lockstep (env.BothInsert partials) (fun _ => False)
      (fun output plain => output = Text.indentLines (indent ++ inner) plain)
      (do
        let k ← env.partialNamed name
        let output ← inside k
        return Text.indentLines indent output) plainly := by
  have hbreaks : ∀ c ∈ inner, Text.isLineBreak c = false := fun c hc =>
    isLineBreak_of_isIndentChar (hinner c hc)
  have hindent : ∀ k, k.template = t → Lockstep (env.BothInsert partials) (fun _ => False)
      (fun output plain => output = Text.indentLines (indent ++ inner) plain)
      (inside k >>= fun output => pure (Text.indentLines indent output)) (plainly >>= pure) := by
    intro k hk
    refine (hinside k hk).bind fun output plain houtput => .pure ?_
    rw [houtput, Text.indentLines_indentLines indent hbreaks]
  have hlookup := (partialNamed_lockstep_pure h).bind fun k (_ : Unit) hk => hindent k hk
  rwa [bind_pure, pure_bind] at hlookup

/-- The scope of a partial is set up in lockstep where the same is inserted. -/
theorem partialFrame_insertAlike (env : Environment) (partials : Table Handle) (t : Template)
    (room : Nat) (chain : List Label) (f : Frame) (call : PartialCall) :
    Lockstep (env.BothInsert partials) (fun _ => False) Eq
      ((env.rendering t).partialFrame ((env.rendering t).renderer room chain).partialNamed f call)
      ((env.rendering t).partialFrame ((env.rendering t).renderer room chain).partialNamed f
        call) := by
  have hself := (env.rendering_insertAlike partials t).related
  have hlevel := Rendering.renderer_related hself (fun _ => id)
    (.inl ⟨rfl, rfl, rfl⟩ : Rendering.RoomAlike _ _ _ room room chain chain)
  have hcall : (Comparison.equal (env.BothInsert partials) (fun _ => False) (fun _ => True)
      trivial).Admits (.partialTag call [] .none) := Rendering.admits_equal_true _
  have hframe := Rendering.partialFrame_lockstep hself hlevel.partialNamed
    (Frame.related_equal_iff.2 (rfl : f = f)) hcall.1
  exact hframe.mono fun _ _ => Frame.related_equal_iff.1

theorem LeadsTo.isIndentChar {nodes last : List Node} {links : List Link}
    (h : env.LeadsTo partials nodes links last) :
    ∀ c ∈ links.flatMap Link.indent, isIndentChar c = true := by
  induction h with
  | last nodes => exact fun c hc => absurd hc List.not_mem_nil
  | tag link position hname hindent hinserts hrest ih =>
    intro c hc
    rw [List.flatMap_cons, List.mem_append] at hc
    exact hc.elim (hindent c) (ih c)

/-- **A chain is rendered in lockstep with the way down it**, and comes to the same output with the
indentations of all its tags in front of every line. -/
theorem LeadsTo.follow_lockstep {nodes last : List Node} {links : List Link}
    (h : env.LeadsTo partials nodes links last) (t : Template) (room : Nat) (chain : List Label)
    (f : Frame) :
    Lockstep (env.BothInsert partials) (fun _ => False)
      (fun output plain => output = Text.indentLines (links.flatMap Link.indent) plain)
      (((env.rendering t).renderer room chain).nodes nodes f)
      ((env.rendering t).follow last links room chain f) := by
  induction h generalizing room chain f with
  | last nodes =>
    have hnodes := (env.renderer_insertAlike partials t room chain).nodes nodes f
    exact hnodes.mono fun output plain h => h.trans (Text.indentLines_nil_left plain).symm
  | @tag link links u nodes position hname hindent hinserts hrest ih =>
    have hframe := env.partialFrame_insertAlike partials t room chain f link.call
    cases room with
    | zero =>
      rw [Rendering.renderer, Rendering.rendererWith_nodes_partialTag hname, Rendering.follow]
      exact hframe.bind_eq fun f =>
        inserted_lockstep hinserts hrest.isIndentChar fun k _ => .throw _
    | succ room =>
      rw [Rendering.renderer, Rendering.rendererWith_nodes_partialTag hname, Rendering.follow]
      refine hframe.bind_eq fun f => ?_
      refine inserted_lockstep hinserts hrest.isIndentChar fun k hk => ?_
      rw [hk]
      exact Rendering.guarded_lockstep_same (ih room _ f) _

end Environment

/-! ## Tags without parameters -/

namespace Rendering

variable {r : Rendering}

/-- Renders nodes inside some levels, the outermost of them first, of the levels that may be
entered. -/
def nodesWithin (r : Rendering) (levels : List Label) (nodes : List Node) (f : Frame) :
    SessionM Text :=
  let inner := r.renderer (r.env.config.maxDepth - levels.length) levels.reverse
  if levels.isEmpty then inner.nodes nodes f else r.guarded levels.reverse (inner.nodes nodes f)

/-- Tags without parameters lead to the scope that they stand in, at the level that their names
make up. -/
theorem follow_cons_of_isPlain (nodes : List Node) (f : Frame) {link : Link} {links : List Link}
    (hplain : ∀ l ∈ link :: links, l.call.IsPlain) (room : Nat) (chain : List Label) :
    r.follow nodes (link :: links) (room + (links.length + 1)) chain f =
      r.guarded (((link :: links).map Link.label).reverse ++ chain)
        ((r.renderer room (((link :: links).map Link.label).reverse ++ chain)).nodes nodes f) := by
  have hframe := hplain link List.mem_cons_self
  induction links generalizing link chain with
  | nil =>
    show r.follow nodes [link] (room + 1) chain f = _
    rw [follow, partialFrame_of_isPlain hframe, pure_bind]
    rfl
  | cons next links ih =>
    have hrest : ∀ l ∈ next :: links, l.call.IsPlain := fun l hl =>
      hplain l (List.mem_cons_of_mem _ hl)
    have hlevels : ((link :: next :: links).map Link.label).reverse ++ chain =
        ((next :: links).map Link.label).reverse ++ link.label :: chain := by simp
    show r.follow nodes (link :: next :: links) (room + (links.length + 1) + 1) chain f = _
    rw [follow, partialFrame_of_isPlain hframe, pure_bind,
      ih hrest (link.label :: chain) (hrest next List.mem_cons_self), guarded_guarded, hlevels]

theorem guarded_throw_tooDeep (chain inner : List Label) :
    r.guarded chain (throw (r.tooDeep inner)) = throw (r.tooDeep inner) :=
  rfl

/-- Tags without parameters that are more than the levels that may be entered lead too deep. -/
theorem follow_of_lt (nodes : List Node) (f : Frame) {links : List Link}
    (hplain : ∀ l ∈ links, l.call.IsPlain) {room : Nat} (hroom : room < links.length)
    (chain : List Label) :
    r.follow nodes links room chain f =
      throw (r.tooDeep (((links.map Link.label).take (room + 1)).reverse ++ chain)) := by
  induction links generalizing room chain with
  | nil => exact absurd hroom (by simp)
  | cons link links ih =>
    have hframe := hplain link List.mem_cons_self
    cases room with
    | zero =>
      rw [follow, partialFrame_of_isPlain hframe, pure_bind]
      simp
    | succ room =>
      have hrest := ih (fun l hl => hplain l (List.mem_cons_of_mem _ hl))
        (Nat.lt_of_succ_lt_succ hroom) (link.label :: chain)
      rw [follow, partialFrame_of_isPlain hframe, pure_bind, hrest, guarded_throw_tooDeep]
      simp

/-- Tags without parameters, no more than may be entered, lead to the nodes inside their levels. -/
theorem follow_eq_nodesWithin (nodes : List Node) (f : Frame) {links : List Link}
    (hplain : ∀ l ∈ links, l.call.IsPlain) (hlength : links.length ≤ r.env.config.maxDepth) :
    r.follow nodes links r.env.config.maxDepth [] f =
      r.nodesWithin (links.map Link.label) nodes f := by
  cases links with
  | nil => rfl
  | cons link links =>
    have hroom : r.env.config.maxDepth =
        r.env.config.maxDepth - (links.length + 1) + (links.length + 1) :=
      (Nat.sub_add_cancel hlength).symm
    have hchain := follow_cons_of_isPlain (r := r) nodes f hplain
      (r.env.config.maxDepth - (links.length + 1)) []
    rw [← hroom, List.append_nil] at hchain
    rw [hchain, nodesWithin, List.length_map]
    rfl

end Rendering

/-- Nodes are rendered inside some levels as they are outside, unless they go too deep. -/
theorem Environment.nodesWithin_lockstep (env : Environment) (t : Template) (levels : List Label)
    (nodes : List Node) (f : Frame) :
    Lockstep (Store.Alike Eq env.helpers.known) Failure.IsTooDeep Eq
      ((env.rendering t).nodesWithin levels nodes f) ((env.topRenderer t).nodes nodes f) := by
  have hexhausted : ∀ reason, ¬ Failure.IsTooDeep (.exhausted reason) := by
    rintro reason ⟨limit, chain, h⟩
    exact absurd h (by simp)
  have hlimit : ∀ limit chain, Failure.IsTooDeep (.template (.recursionLimit limit chain)) :=
    fun limit chain => ⟨limit, chain, rfl⟩
  have hlevel := Rendering.renderer_related (rendering_related_refl env t standsFor_tooDeep.passed)
    hexhausted (.inr ⟨Nat.sub_le env.config.maxDepth levels.length, hlimit⟩ :
      Rendering.RoomAlike _ _ _ _ _ levels.reverse [])
  have hnodes : Lockstep (Store.Alike Eq env.helpers.known) Failure.IsTooDeep Eq _ _ :=
    (hlevel.nodes nodes (fun n _ => Rendering.admits_equal_true n) f f
      (Frame.related_equal_iff.2 rfl)).mono fun _ _ houtput => houtput.1
  rw [Rendering.nodesWithin]
  split
  · exact hnodes
  · exact Rendering.guarded_lockstep_left hexhausted (fun chain => hlimit _ _) hnodes _

/-! ## What an engine answers -/

namespace Engine

variable {e : Engine} {h : Handle} {links : List Link} {last : List Node}

/-- An engine renders a chain to what the way down it comes to, indented by all of its tags. -/
theorem render_eq_follow (he : e.IsReachable)
    (hchain : e.env.LeadsTo e.session.store.partials h.template.nodes links last) (data : Value) :
    (e.render h data).1 =
      (e.perform ((e.env.rendering h.template).follow last links e.env.config.maxDepth []
        (.ofData data))).1.map (Text.indentLines (links.flatMap Link.indent)) := by
  have hlockstep := hchain.follow_lockstep h.template e.env.config.maxDepth [] (.ofData data)
  have hsession : e.session.Alike (e.env.BothInsert e.session.store.partials) e.session :=
    (he.insertAlike e.session).session
  rcases perform_rel hlockstep hsession with ⟨_, -, hnone⟩ | hresult
  · exact hnone.elim
  · rw [render, Environment.render, Environment.topRenderer]
    generalize (e.perform _).1 = left at hresult ⊢
    generalize (e.perform _).1 = right at hresult ⊢
    cases hresult with
    | ok houtput => exact congrArg Except.ok houtput
    | error failure => rfl

/-- A chain without parameters that is longer than the limit is refused, with the names of as many
partials as come to one level too many. -/
theorem render_chain_tooDeep (he : e.IsReachable)
    (hchain : e.env.LeadsTo e.session.store.partials h.template.nodes links last)
    (hplain : ∀ link ∈ links, link.call.IsPlain) (hlength : e.env.config.maxDepth < links.length)
    (data : Value) :
    (e.render h data).1 = .error (.template (.recursionLimit e.env.config.maxDepth
      ((links.map Link.label).take (e.env.config.maxDepth + 1)))) := by
  rw [render_eq_follow he hchain, Rendering.follow_of_lt last _ hplain hlength, List.append_nil,
    Rendering.tooDeep, List.reverse_reverse]
  rfl

/-- A chain without parameters that fits into the limit renders to the nodes at its end inside its
levels, indented. -/
theorem render_chain (he : e.IsReachable)
    (hchain : e.env.LeadsTo e.session.store.partials h.template.nodes links last)
    (hplain : ∀ link ∈ links, link.call.IsPlain) (hlength : links.length ≤ e.env.config.maxDepth)
    (data : Value) :
    (e.render h data).1 =
      (e.perform ((e.env.rendering h.template).nodesWithin (links.map Link.label) last
        (.ofData data))).1.map (Text.indentLines (links.flatMap Link.indent)) := by
  have hfollow := Rendering.follow_eq_nodesWithin (r := e.env.rendering h.template) last
    (.ofData data) hplain hlength
  rw [render_eq_follow he hchain, ← hfollow]
  rfl

/-- What the template at the end of a chain renders to inside the levels of the chain is what it
renders to by itself, unless it goes too deep. -/
theorem nodesWithin_onlyAddsTooDeep (he : e.IsReachable) {k : Handle}
    (hstrict : k.template.options.strict = h.template.options.strict)
    (hstring : k.template.options.stringParams = h.template.options.stringParams)
    (levels : List Label) (data : Value) :
    OnlyAddsTooDeep
      (e.perform ((e.env.rendering h.template).nodesWithin levels k.template.nodes
        (.ofData data))).1
      (e.render k data).1 := by
  have hrendering : e.env.rendering h.template = e.env.rendering k.template := by
    rw [Environment.rendering, Environment.rendering, hstrict, hstring]
  have hlockstep := e.env.nodesWithin_lockstep k.template levels k.template.nodes (.ofData data)
  rw [hrendering]
  rcases perform_rel hlockstep (Session.alike_self (fun _ => rfl) he.coherent) with
    ⟨_, herror, limit, chain, rfl⟩ | hresult
  · exact .inl ⟨limit, chain, herror⟩
  · exact .inr (hresult.eq id)

theorem OnlyAddsTooDeep.map {lower higher : Except Failure Text} (h : OnlyAddsTooDeep lower higher)
    (f : Text → Text) : OnlyAddsTooDeep (lower.map f) (higher.map f) := by
  rcases h with ⟨limit, chain, rfl⟩ | rfl
  · exact .inl ⟨limit, chain, rfl⟩
  · exact .inr rfl

/-- **The indentation of partials composes.**

* Indenting by spaces and tabs keeps the lines of a text: they are what they were behind the
  indentation, so that without it they make up the text, and nothing comes of an empty text.
  Indenting again is indenting once, by the outer indentation and then the inner one.
* A template that is nothing but a partial tag on a line of its own can be compiled, and its tree is
  the tag, indented by what stands before it.
* A reachable engine renders a chain of such trees to what the way down it comes to, indented once
  by the indentations of all the tags.  If the tags have no parameters, that is what the nodes at
  the end render to inside the levels of the chain: what a template of these nodes renders to by
  itself, unless it goes too deep.  If there are more tags than levels may be entered, the chain is
  refused for that. -/
theorem render_indentedChain :
    (∀ indent : Text, (∀ c ∈ indent, isIndentChar c = true) → ∀ t : Text,
      let indented := Text.indentLines indent t
      Text.lines indented = (Text.lines t).map (indent ++ ·) ∧
      ((Text.lines indented).map (·.drop indent.length)).flatten = t ∧
      Text.indentLines indent [] = [] ∧
      ∀ outer : Text, Text.indentLines outer indented = Text.indentLines (outer ++ indent) t) ∧
    (∀ (options : CompileOptions) (t : LonePartial options.delimiters) (known : KnownHelpers)
      (name : Text), ∃ u, (Template.compile known options name t.source).result = .ok u ∧
        u.nodes = [.partialTag t.call t.indent t.tag.start.position]) ∧
    ∀ {e : Engine} {h : Handle} {links : List Link} {last : List Node}, e.IsReachable →
      e.env.LeadsTo e.session.store.partials h.template.nodes links last → ∀ data : Value,
      let r := e.env.rendering h.template
      let limit := e.env.config.maxDepth
      let levels := links.map Link.label
      let indented := Text.indentLines (links.flatMap Link.indent)
      (e.render h data).1 =
        (e.perform (r.follow last links limit [] (.ofData data))).1.map indented ∧
      ((∀ link ∈ links, link.call.IsPlain) →
        (limit < links.length → (e.render h data).1 =
          .error (.template (.recursionLimit limit (levels.take (limit + 1))))) ∧
        (links.length ≤ limit →
          (e.render h data).1 =
            (e.perform (r.nodesWithin levels last (.ofData data))).1.map indented ∧
          ∀ k : Handle, k.template.nodes = last →
            k.template.options.strict = h.template.options.strict →
            k.template.options.stringParams = h.template.options.stringParams →
            OnlyAddsTooDeep (e.render h data).1 ((e.render k data).1.map indented))) := by
  refine ⟨fun indent hindent t => ?_, fun options t => Template.compile_lonePartial t,
    fun he hchain data => ⟨render_eq_follow he hchain data, fun hplain => ⟨?_, fun hlength => ?_⟩⟩⟩
  · have hbreaks : ∀ c ∈ indent, Text.isLineBreak c = false := fun c hc =>
      isLineBreak_of_isIndentChar (hindent c hc)
    exact ⟨Text.lines_indentLines hbreaks t, Text.flatten_drop_lines_indentLines hbreaks t, rfl,
      fun outer => Text.indentLines_indentLines outer hbreaks t⟩
  · exact fun hlength => render_chain_tooDeep he hchain hplain hlength data
  · have hrender := render_chain he hchain hplain hlength data
    refine ⟨hrender, ?_⟩
    rintro k rfl hstrict hstring
    rw [hrender]
    exact (nodesWithin_onlyAddsTooDeep he hstrict hstring _ data).map _

/-- Two tags on lines of their own, the second of them in a partial that is loaded. -/
theorem render_indentedChain_loaded :
    let first : Text := " \x7b\x7b> a\x7d\x7d\n".toList
    let second : Text := "\t\x7b\x7b> b\x7d\x7d\r\n".toList
    let loader : Loader := .map [(['a'], second), (['b'], "x\r\n\ny".toList)]
    let e := (create .standard (some loader) none { directory := .parse ['/'] }).withStreams 0
    ∃ (h k : Handle) (links : List Link), e.IsReachable ∧
      e.env.LeadsTo e.session.store.partials h.template.nodes links k.template.nodes ∧
      h.template.source = first ∧ k.template.source = "x\r\n\ny".toList ∧
      (∀ link ∈ links, link.call.IsPlain) ∧ links.flatMap Link.indent = [' ', '\t'] ∧
      OnlyAddsTooDeep (e.render h .null).1
        ((e.render k .null).1.map (Text.indentLines [' ', '\t'])) ∧
      (e.renderSource first .null).1 = .ok " \tx\r\n \t\n \ty".toList := by
  intro first second loader e
  have hreachable : e.IsReachable := ⟨.standard, some loader, none, _, 0, [], rfl⟩
  let call (name : Text) : PartialCall := ⟨.literal name (.text name), none, []⟩
  let tag (name : Text) : Tag :=
    ⟨.partialRef, "\x7b\x7b> ".toList ++ name ++ "\x7d\x7d".toList, name, ⟨1, 1, 2⟩, false, false⟩
  have hcall : ∀ c : Char, Lexeme.read? [c] = some (.word [c], []) →
      Expr.partialName? (.word [c]) = some (call [c]).name → (call [c]).IsCanonical :=
    fun c hread hname => ⟨.literal hread hname, List.forall_mem_nil _, List.forall_mem_nil _,
      List.forall_mem_nil _⟩
  let p : LonePartial .braces :=
    { indent := [' '], tag := tag ['a'], ending := ['\n'], call := call ['a']
      isIndent := List.forall_mem_singleton.2 rfl, read := by decide +kernel, kind := rfl
      parse := PartialCall.parse_print (hcall 'a' (by decide +kernel) rfl) _, endsLine := rfl }
  let q : LonePartial .braces :=
    { indent := ['\t'], tag := tag ['b'], ending := ['\r', '\n'], call := call ['b']
      isIndent := List.forall_mem_singleton.2 rfl, read := by decide +kernel, kind := rfl
      parse := PartialCall.parse_print (hcall 'b' (by decide +kernel) rfl) _, endsLine := rfl }
  -- the three templates, the last of which is nothing but text
  have hcompile := fun p => render_indentedChain.2.1 {} p e.env.helpers.known
  obtain ⟨t, ht, htnodes⟩ := hcompile p []
  obtain ⟨u, hu, hunodes⟩ := hcompile q ['a']
  obtain ⟨v, hv⟩ := Except.isOk_iff.1 (show (Template.compile e.env.helpers.known {} ['b']
    "x\r\n\ny".toList).result.isOk = true by decide +kernel)
  have ha : e.env.insertion? e.session.store.partials ['a'] = some u :=
    Except.toOption_eq_some.2 hu
  have hb : e.env.insertion? e.session.store.partials ['b'] = some v :=
    Except.toOption_eq_some.2 hv
  let outer : Link := ⟨call ['a'], ['a'], [' ']⟩
  let inner : Link := ⟨call ['b'], ['b'], ['\t']⟩
  have hinner : e.env.LeadsTo e.session.store.partials u.nodes [inner] v.nodes := by
    rw [hunodes]
    exact .tag inner _ rfl q.isIndent hb (.last _)
  have hchain : e.env.LeadsTo e.session.store.partials t.nodes [outer, inner] v.nodes := by
    rw [htnodes]
    exact .tag outer _ rfl p.isIndent ha hinner
  have hplain : ∀ link ∈ [outer, inner], link.call.IsPlain := by
    intro link hlink
    simp only [List.mem_cons, List.not_mem_nil, or_false] at hlink
    rcases hlink with rfl | rfl
    · exact ⟨rfl, rfl⟩
    · exact ⟨rfl, rfl⟩
  have hplainly := (render_indentedChain.2.2 hreachable (h := ⟨0, t⟩) hchain .null).2 hplain
  obtain ⟨-, htsource, htoptions⟩ := Template.key_of_compile ht
  obtain ⟨-, hvsource, hvoptions⟩ := Template.key_of_compile hv
  refine ⟨⟨0, t⟩, ⟨0, v⟩, [outer, inner], hreachable, hchain, htsource, hvsource, hplain, rfl,
    (hplainly.2 (by decide)).2 ⟨0, v⟩ rfl ?_ ?_, by decide +kernel⟩
  · rw [hvoptions, htoptions]
  · rw [hvoptions, htoptions]

/-- Two tags do not fit into a limit of one, and then nothing is indented. -/
theorem render_indentedChain_beyond_limit :
    let first : Text := " \x7b\x7b> a\x7d\x7d".toList
    let loader : Loader := .map [(['a'], " \x7b\x7b> b\x7d\x7d".toList), (['b'], ['x'])]
    let config := EngineConfig.standard.withMaxDepth ⟨1, by decide⟩
    let e := (create config (some loader) none { directory := .parse ['/'] }).withStreams 0
    (e.renderSource ['x'] .null).1 = .ok ['x'] ∧
      (e.renderSource first .null).1 = .error
        (.template (.recursionLimit 1 [.partialNamed ['a'], .partialNamed ['b']])) ∧
      (e.renderSource first .null).1 ≠
        (e.renderSource ['x'] .null).1.map (Text.indentLines ([' '] ++ [' '])) := by
  intro first loader config e
  have hx : (e.renderSource ['x'] .null).1 = .ok ['x'] := by decide +kernel
  have hfirst : (e.renderSource first .null).1 = .error
      (.template (.recursionLimit 1 [.partialNamed ['a'], .partialNamed ['b']])) := by
    decide +kernel
  refine ⟨hx, hfirst, ?_⟩
  rw [hx, hfirst]
  exact nofun

end Engine

end Stencil
