import Stencil.Proofs.Engine.Lockstep
import Stencil.Proofs.Except
import Stencil.Proofs.Value.Similar
import Stencil.Rendering.Nesting

/-!
# Comparing two renderings

A statement about a rendering often compares it with another one, or with itself: the helpers differ
in some names, the data differ in what a template cannot see, or every output is of some form.  A
`Comparison` says what of the two renderings is related and how, and what both of them keep to:

* which values stand for each other, and which outputs may come out, which are then the same;
* which helpers may be called, which partials inserted and which output tags used.

The laws are what rendering itself needs: it makes values of literals, streams and outputs, puts
outputs together, and goes on with the fields of values.

From the values the relation spreads to scopes, frames and the calls of helpers.  `Script.Related`
says that two helpers make related requests, as long as the answers are related.
-/

set_option autoImplicit false

namespace Stencil

open SessionM (Lockstep)

/-! ## What is done on behalf of a helper -/

/-- Something that is done on behalf of a helper comes to the same result, and a failure is passed
on by the helper. -/
theorem SessionM.run_onBehalf {α : Type} (name : Text) (position : Position) (act : SessionM α)
    (s : Session) :
    (act.onBehalf name position).run s =
      match act.run s with
      | .ok a s => .ok a s
      | .error e s => .error (e.passing name position) s := by
  rw [onBehalf, Lockstep.run_tryCatch]
  cases act.run s <;> rfl

/-- A failure that helpers pass on as it is. -/
def Failure.IsPassedOn (e : Failure) : Prop :=
  ∀ name position, e.passing name position = e

theorem Failure.isPassedOn_template (e : TemplateError) : (Failure.template e).IsPassedOn :=
  fun _ _ => rfl

theorem Failure.isPassedOn_exhausted (reason : Text) : (Failure.exhausted reason).IsPassedOn :=
  fun _ _ => rfl

/-- What is in lockstep is so on behalf of the same helper, if excused failures are passed on. -/
theorem SessionM.Lockstep.onBehalf {α β : Type} {stores : Store → Store → Prop}
    {excused : Failure → Prop} {results : α → β → Prop} {act : SessionM α} {act' : SessionM β}
    (hact : Lockstep stores excused results act act')
    (hexcused : ∀ e, excused e → e.IsPassedOn) (name : Text) (position : Position) :
    Lockstep stores excused results (act.onBehalf name position)
      (act'.onBehalf name position) :=
  hact.tryCatch (fun _ => .throw _) fun e he => by rw [hexcused e he name position]

/-! ## Comparisons -/

/-- What is compared of two renderings. -/
structure Comparison where
  /-- How the stores are related. -/
  stores : Store → Store → Prop
  /-- Which failures of the left rendering are excused. -/
  excused : Failure → Prop
  /-- Which values stand for each other. -/
  values : Value → Value → Prop
  /-- Which outputs may come out on both sides. -/
  outputs : Text → Prop
  /-- Which names may be called, by a section or by anything else. -/
  calls : (isBlock : Bool) → Text → Prop
  /-- Which partials may be inserted. -/
  inserts : Text → Prop
  /-- Whether output tags may be used, those that escape and those that do not. -/
  shows : (escaped : Bool) → Prop
  /-- A template sees no difference between values that stand for each other. -/
  similar : ∀ {v w}, values v w → Value.Similar values v w
  /-- Literals stand for themselves. -/
  literal : ∀ l : Literal, values l.value l.value
  /-- The mapping without entries stands for itself. -/
  noEntries : values (.map []) (.map [])
  /-- Streams of related items stand for each other. -/
  stream : ∀ (serial : Nat) {vs ws : List Value}, List.Forall₂ values vs ws →
    values (.stream serial vs) (.stream serial ws)
  /-- No output may come out. -/
  nil : outputs []
  /-- Outputs can be put together. -/
  append : ∀ {t u : Text}, outputs t → outputs u → outputs (t ++ u)
  /-- The helper that takes the place of missing ones may be called. -/
  fallback : ∀ isBlock, calls isBlock HelperRegistry.fallbackName

/-- A node is the first of the nodes that it consists of. -/
theorem Node.mem_descendants_self (n : Node) : n ∈ n.descendants := by
  cases n with
  | _ =>
    rw [Node.descendants]
    exact List.mem_cons_self

/-- Related values are shown in the same way. -/
theorem Escaper.value_eq {R : Value → Value → Prop} (hR : Value.IsSimulation R) {v w : Value}
    (h : R v w) (escape : Escaper) : Escaper.value escape v = Escaper.value escape w := by
  have htext := Value.outputText_eq hR h
  cases hR h with
  | safe t => rfl
  | _ => exact congrArg escape htext

/-- A partial tag may insert the partial that it names; if it does not write out a name, it may
insert any partial. -/
def PartialCall.MayInsert (call : PartialCall) (name : Text) : Prop :=
  ∀ literal, call.literalName? = some literal → name = literal

namespace Comparison

variable {c : Comparison}

/-- Two outputs are the same, and it may come out. -/
def Output (c : Comparison) (t u : Text) : Prop :=
  t = u ∧ c.outputs t

theorem Output.append {t t' u u' : Text} (ht : c.Output t t') (hu : c.Output u u') :
    c.Output (t ++ u) (t' ++ u') :=
  ⟨by rw [ht.1, hu.1], c.append ht.2 hu.2⟩

theorem output_nil (c : Comparison) : c.Output [] [] :=
  ⟨rfl, c.nil⟩

theorem isSimulation (c : Comparison) : Value.IsSimulation c.values :=
  c.similar

theorem undefined (c : Comparison) : c.values .undefined .undefined :=
  c.literal .undefined

theorem text (c : Comparison) (t : Text) : c.values (.text t) (.text t) :=
  c.literal (.text t)

/-- What a parameter is written as stands for itself. -/
theorem asWritten (c : Comparison) (e : Expr) : c.values e.asWritten e.asWritten := by
  unfold Expr.asWritten
  split
  · exact c.text _
  · exact c.text _

theorem field {v w : Value} (h : c.values v w) (segment : Text) :
    c.values (v.field segment) (w.field segment) :=
  Value.field_rel c.isSimulation c.undefined h segment

/-- What both sides answer for a call: related values, and for a section an output. -/
def Answers (c : Comparison) (isBlock : Bool) (v w : Value) : Prop :=
  c.values v w ∧ (isBlock = true → c.outputs v.outputText)

/-! ## Nodes that both sides may render -/

/-- Whether a call may be made: by its name, which may be the name of a helper, and by the calls in
its parameters. -/
structure AdmitsCall (c : Comparison) (isBlock : Bool) (call : Call) : Prop where
  /-- The name may be called, if it can be one. -/
  head : call.head.isSimple = true → c.calls isBlock call.head.source
  /-- The positional parameters call what may be called. -/
  params : ∀ name ∈ Expr.calleesOfList call.params, c.calls false name
  /-- The named parameters do. -/
  named : ∀ name ∈ Expr.calleesOfNamed call.named, c.calls false name

/-- Whether a partial tag may be rendered: by the names that it may insert, and by the calls in its
parameters. -/
structure AdmitsPartial (c : Comparison) (call : PartialCall) : Prop where
  /-- Every name that the tag may insert may be inserted. -/
  inserts : ∀ name, call.MayInsert name → c.inserts name
  /-- The name calls what may be called. -/
  name : ∀ name ∈ call.name.callees, c.calls false name
  /-- The context does. -/
  context : ∀ e ∈ call.context, ∀ name ∈ e.callees, c.calls false name
  /-- The bindings do. -/
  named : ∀ name ∈ Expr.calleesOfNamed call.named, c.calls false name

/-- Whether a node itself may be rendered, the nodes inside it apart. -/
def Admits (c : Comparison) : Node → Prop
  | .text t => c.outputs t
  | .comment _ => True
  | .output escaped call _ => c.shows escaped ∧ c.AdmitsCall false call
  | .block _ call _ _ _ => c.AdmitsCall true call
  | .partialTag call indent _ =>
    c.AdmitsPartial call ∧ ∀ t, c.outputs t → c.outputs (Text.indentLines indent t)

/-- Whether all nodes of a tree may be rendered. -/
def AdmitsAll (c : Comparison) (nodes : List Node) : Prop :=
  ∀ n ∈ Node.preorder nodes, c.Admits n

/-- If everything may be called, inserted, used and come out, every node may be rendered. -/
theorem admits_of_forall (houtputs : ∀ t, c.outputs t)
    (hcalls : ∀ isBlock name, c.calls isBlock name) (hinserts : ∀ name, c.inserts name)
    (hshows : ∀ escaped, c.shows escaped) (n : Node) :
    c.Admits n := by
  cases n with
  | text t => exact houtputs t
  | comment content => trivial
  | output escaped call position =>
    exact ⟨hshows escaped, fun _ => hcalls _ _, fun _ _ => hcalls _ _, fun _ _ => hcalls _ _⟩
  | block inverted call body inverse position =>
    exact ⟨fun _ => hcalls _ _, fun _ _ => hcalls _ _, fun _ _ => hcalls _ _⟩
  | partialTag call indent position =>
    exact ⟨⟨fun _ _ => hinserts _, fun _ _ => hcalls _ _, fun _ _ _ _ => hcalls _ _,
      fun _ _ => hcalls _ _⟩, fun _ _ => houtputs _⟩

theorem admitsAll_nil (c : Comparison) : c.AdmitsAll [] := by
  intro n hn
  exact absurd hn List.not_mem_nil

/-- The nodes of a tree may be rendered, each with those inside it. -/
theorem AdmitsAll.of_mem {nodes : List Node} (h : c.AdmitsAll nodes) {n : Node} (hn : n ∈ nodes) :
    ∀ m ∈ n.descendants, c.Admits m := by
  induction nodes with
  | nil => exact absurd hn List.not_mem_nil
  | cons first nodes ih =>
    intro m hm
    rcases List.mem_cons.1 hn with rfl | hn
    · exact h m (by rw [Node.preorder]; exact List.mem_append_left _ hm)
    · refine ih (fun m' hm' => h m' ?_) hn m hm
      rw [Node.preorder]
      exact List.mem_append_right _ hm'

theorem AdmitsAll.singleton {nodes : List Node} (h : c.AdmitsAll nodes) {n : Node}
    (hn : n ∈ nodes) : c.AdmitsAll [n] := by
  intro m hm
  rw [Node.preorder, Node.preorder, List.append_nil] at hm
  exact h.of_mem hn m hm

end Comparison

variable {c : Comparison}

/-! ## Scopes and frames -/

/-- Two scopes are related if their values, variables and bindings are. -/
structure Scope.Related (c : Comparison) (s t : Scope) : Prop where
  /-- The values are related. -/
  value : c.values s.value t.value
  /-- The variables are. -/
  locals : Table.Related c.values s.locals t.locals
  /-- The bindings are. -/
  bindings : Table.Related c.values s.bindings t.bindings

/-- Two frames are related if their scopes are, one by one. -/
structure Frame.Related (c : Comparison) (f g : Frame) : Prop where
  /-- The innermost scopes are related. -/
  current : f.current.Related c g.current
  /-- The scopes around them are. -/
  outer : List.Forall₂ (Scope.Related c) f.outer g.outer

namespace Frame.Related

variable {f g : Frame}

theorem value (h : f.Related c g) : c.values f.value g.value :=
  h.current.value

theorem push (h : f.Related c g) {v w : Value} (hv : c.values v w) {locals locals' : Table Value}
    (hlocals : Table.Related c.values locals locals') {bindings bindings' : Table Value}
    (hbindings : Table.Related c.values bindings bindings') :
    (f.push v locals bindings).Related c (g.push w locals' bindings') :=
  ⟨⟨hv, hlocals, hbindings⟩, .cons h.current h.outer⟩

theorem root {v w : Value} (hv : c.values v w) : (Frame.root v).Related c (Frame.root w) :=
  ⟨⟨hv, .nil, .nil⟩, .nil⟩

theorem scopes (h : f.Related c g) : List.Forall₂ (Scope.Related c) f.scopes g.scopes :=
  .cons h.current h.outer

/-- Leaving scopes leads to related frames, or there are too few scopes on both sides. -/
theorem ancestor? (n : Nat) (h : f.Related c g) :
    Option.Rel (Frame.Related c) (Frame.ancestor? n f) (Frame.ancestor? n g) := by
  induction n generalizing f g with
  | zero => exact .some h
  | succ n ih =>
    obtain ⟨current, outer⟩ := f
    obtain ⟨current', outer'⟩ := g
    have houter := h.outer
    dsimp only at houter
    cases houter with
    | nil => exact .none
    | cons hscope hrest => exact ih ⟨hscope, hrest⟩

theorem rootValue (h : f.Related c g) : c.values f.rootValue g.rootValue := by
  obtain ⟨s, outer⟩ := f
  obtain ⟨t, outer'⟩ := g
  obtain ⟨hcurrent, houter⟩ := h
  dsimp only at hcurrent houter
  rw [Frame.rootValue, Frame.rootValue]
  simp only [Frame.scopes]
  induction houter generalizing s t with
  | nil => exact hcurrent.value
  | cons hscope hrest ih =>
    rw [List.getLast_cons_cons, List.getLast_cons_cons]
    exact ih _ _ hscope

/-- A variable has related values. -/
theorem variableNamed (h : f.Related c g) (name : Text) :
    c.values (f.variableNamed name) (g.variableNamed name) := by
  have hfind : Option.Rel c.values
      (f.scopes.findSome? fun scope => Table.get? scope.locals name)
      (g.scopes.findSome? fun scope => Table.get? scope.locals name) := by
    have hscopes := h.scopes
    generalize f.scopes = scopes at hscopes
    generalize g.scopes = scopes' at hscopes
    induction hscopes with
    | nil => exact .none
    | @cons s t scopes scopes' hscope hrest ih =>
      rw [List.findSome?_cons, List.findSome?_cons]
      have hget := hscope.locals.get? name
      generalize Table.get? s.locals name = left at hget ⊢
      generalize Table.get? t.locals name = right at hget ⊢
      cases hget with
      | none => exact ih
      | some hvalue => exact .some hvalue
  rw [Frame.variableNamed, Frame.variableNamed]
  split
  · exact h.rootValue
  · exact Value.getD_rel hfind c.undefined

theorem start (h : f.Related c g) (isData : Bool) (segment : Text) :
    c.values (f.start isData segment) (g.start isData segment) := by
  cases isData with
  | true => exact h.variableNamed segment
  | false =>
    rw [Frame.start, Frame.start]
    simp only [Bool.false_eq_true, if_false]
    have hget := h.current.bindings.get? segment
    generalize Table.get? f.current.bindings segment = left at hget ⊢
    generalize Table.get? g.current.bindings segment = right at hget ⊢
    cases hget with
    | none => exact c.field h.value segment
    | some hvalue => exact hvalue

end Frame.Related

theorem Frame.found_related {v w : Value} (h : c.values v w) (p : Path) (strict : Bool)
    (segment : Text) :
    Except.Rel c.values (found p strict segment v) (found p strict segment w) := by
  rw [found, found, (c.similar h).isUndefined_eq]
  split
  · exact .error _
  · exact .ok h

theorem Frame.follow_related {v w : Value} (h : c.values v w) (p : Path) (strict : Bool)
    (segments : List Text) :
    Except.Rel c.values (follow p strict v segments) (follow p strict w segments) := by
  induction segments generalizing v w with
  | nil => exact .ok h
  | cons segment rest ih =>
    have hfound := found_related (c.field h segment) p strict segment
    rw [follow, follow]
    generalize found p strict segment (v.field segment) = left at hfound ⊢
    generalize found p strict segment (w.field segment) = right at hfound ⊢
    cases hfound with
    | error e => exact .error e
    | ok hvalue => exact ih hvalue

/-- **A path leads from related frames to related values**, or fails in the same way. -/
theorem Frame.Related.resolve {f g : Frame} (h : f.Related c g) (p : Path) (strict : Bool) :
    Except.Rel c.values (f.resolve p strict) (g.resolve p strict) := by
  have hancestor := h.ancestor? p.depth
  rw [Frame.resolve, Frame.resolve]
  generalize Frame.ancestor? p.depth f = left at hancestor ⊢
  generalize Frame.ancestor? p.depth g = right at hancestor ⊢
  cases hancestor with
  | none => exact .error _
  | @some f g h =>
    dsimp only
    cases p.segments with
    | nil => exact .ok h.value
    | cons segment rest =>
      have hfound := found_related (h.start p.isData segment) p strict segment
      dsimp only
      generalize found p strict segment (f.start p.isData segment) = left at hfound ⊢
      generalize found p strict segment (g.start p.isData segment) = right at hfound ⊢
      cases hfound with
      | error e => exact .error e
      | ok hvalue => exact follow_related hvalue p strict rest

/-! ## Helpers -/

/-- Two ways to enter a scope are related if the parts that are given are the same and related. -/
structure Entering.Related (c : Comparison) (e e' : Entering) : Prop where
  /-- The values are related. -/
  context : Option.Rel c.values e.context e'.context
  /-- The variables are. -/
  locals : Table.Related c.values e.locals e'.locals
  /-- The bindings are. -/
  bindings : Table.Related c.values e.bindings e'.bindings

theorem Entering.related_empty (c : Comparison) : Entering.Related c {} {} :=
  ⟨.none, .nil, .nil⟩

theorem Entering.Related.frame {e e' : Entering} (h : e.Related c e') {f g : Frame}
    (hf : f.Related c g) : (e.frame f).Related c (e'.frame g) := by
  obtain ⟨context, locals, bindings⟩ := e
  obtain ⟨context', locals', bindings'⟩ := e'
  obtain ⟨hcontext, hlocals, hbindings⟩ := h
  dsimp only at hcontext hlocals hbindings
  rw [Entering.frame, Entering.frame]
  simp only [hlocals.isEmpty_eq, hbindings.isEmpty_eq]
  cases hcontext with
  | none =>
    split
    · exact hf
    · exact hf.push hf.value hlocals hbindings
  | some hvalue => exact hf.push hvalue hlocals hbindings

/-- The ends of a sequence are marked in the same way. -/
theorem Entering.related_endMarks (c : Comparison) (index count : Nat) :
    Table.Related c.values (endMarks index count) (endMarks index count) :=
  .cons ⟨rfl, c.literal (.bool _)⟩ (.cons ⟨rfl, c.literal (.bool _)⟩ .nil)

theorem forall₂_zipIdx {α β : Type} {R : α → β → Prop} {as : List α} {bs : List β}
    (h : List.Forall₂ R as bs) (start : Nat) :
    List.Forall₂ (fun x y => R x.1 y.1 ∧ x.2 = y.2) (as.zipIdx start) (bs.zipIdx start) := by
  induction h generalizing start with
  | nil => exact .nil
  | cons hab hrest ih => exact .cons ⟨hab, rfl⟩ (ih (start + 1))

/-- Related sequences are gone through in related scopes. -/
theorem Entering.related_ofItems {vs ws : List Value} (h : List.Forall₂ c.values vs ws) :
    List.Forall₂ (Entering.Related c) (ofItems vs) (ofItems ws) := by
  rw [ofItems, ofItems, List.forall₂_map_left_iff, List.forall₂_map_right_iff, h.length_eq]
  refine (forall₂_zipIdx h 0).imp ?_
  rintro ⟨v, index⟩ ⟨w, _⟩ ⟨hv, rfl⟩
  exact ⟨.some hv, .cons ⟨rfl, c.literal (.int _)⟩ (related_endMarks c _ _), .nil⟩

/-- Related mappings are gone through in related scopes. -/
theorem Entering.related_ofEntries {es fs : List (Value × Value)}
    (h : List.Forall₂ (fun e f => c.values e.1 f.1 ∧ c.values e.2 f.2) es fs) :
    List.Forall₂ (Entering.Related c) (ofEntries es) (ofEntries fs) := by
  rw [ofEntries, ofEntries, List.forall₂_map_left_iff, List.forall₂_map_right_iff, h.length_eq]
  refine (forall₂_zipIdx h 0).imp ?_
  rintro ⟨e, index⟩ ⟨f, _⟩ ⟨he, rfl⟩
  exact ⟨.some he.2, .cons ⟨rfl, he.1⟩ (related_endMarks c _ _), .nil⟩

/-- Two calls of a helper are related if they have related parameters and are the same in all
else. -/
structure Invocation.Related (c : Comparison) (i j : Invocation) : Prop where
  /-- The name is the same. -/
  name : i.name = j.name
  /-- The contexts are related. -/
  context : c.values i.context j.context
  /-- The scopes have related values. -/
  scope : c.values i.scope j.scope
  /-- The other positional parameters are related. -/
  params : List.Forall₂ c.values i.params j.params
  /-- The named parameters are. -/
  named : Table.Related c.values i.named j.named
  /-- Both are sections, or none is. -/
  isBlock : i.isBlock = j.isBlock
  /-- Both have another branch, or none has. -/
  hasInverse : i.hasInverse = j.hasInverse
  /-- Both are given the source of their parameters, or none is. -/
  stringParams : i.stringParams = j.stringParams

/-- **Two scripts are related** if they ask for related things and, when the answers are related, go
on being related. -/
inductive Script.Related (c : Comparison) {α β : Type} (answers : α → β → Prop) :
    Script α → Script β → Prop
  /-- The answers are related. -/
  | done {a : α} {b : β} (h : answers a b) : Related c answers (.done a) (.done b)
  /-- Both stop for the same reason. -/
  | stop (why : Raised) : Related c answers (.stop why) (.stop why)
  /-- Both render the same branch, in related scopes. -/
  | render (branch : Branch) {e e' : Entering} (he : e.Related c e') {next : Text → Script α}
      {next' : Text → Script β} (h : ∀ t, c.outputs t → Related c answers (next t) (next' t)) :
      Related c answers (.render branch e next) (.render branch e' next')
  /-- Both render the same partial, in related scopes. -/
  | partialNamed {name : Text} (hname : c.inserts name) {context context' : Option Value}
      (hcontext : Option.Rel c.values context context') {next : Text → Script α}
      {next' : Text → Script β} (h : ∀ t, c.outputs t → Related c answers (next t) (next' t)) :
      Related c answers (.partialNamed name context next) (.partialNamed name context' next')
  /-- Both resolve the same path. -/
  | resolve (path : Text) {next : Value → Script α} {next' : Value → Script β}
      (h : ∀ v w, c.values v w → Related c answers (next v) (next' w)) :
      Related c answers (.resolve path next) (.resolve path next')
  /-- Both look up the same variable. -/
  | readVariable (name : Text) {next : Value → Script α} {next' : Value → Script β}
      (h : ∀ v w, c.values v w → Related c answers (next v) (next' w)) :
      Related c answers (.readVariable name next) (.readVariable name next')
  /-- Both make a stream of related items. -/
  | newStream {items items' : List Value} (hitems : List.Forall₂ c.values items items')
      {next : Value → Script α} {next' : Value → Script β}
      (h : ∀ v w, c.values v w → Related c answers (next v) (next' w)) :
      Related c answers (.newStream items next) (.newStream items' next')
  /-- Both read the same stream of related items. -/
  | read (serial : Nat) {items items' : List Value} (hitems : List.Forall₂ c.values items items')
      (count : Nat) {next : List Value → Script α} {next' : List Value → Script β}
      (h : ∀ vs ws, List.Forall₂ c.values vs ws → Related c answers (next vs) (next' ws)) :
      Related c answers (.read serial items count next) (.read serial items' count next')
  /-- Both write the same output. -/
  | write {output : Text} (houtput : c.outputs output) {next : Script α} {next' : Script β}
      (h : Related c answers next next') :
      Related c answers (.write output next) (.write output next')
  /-- Both ask what has been written. -/
  | written {next : Text → Script α} {next' : Text → Script β}
      (h : ∀ t, c.outputs t → Related c answers (next t) (next' t)) :
      Related c answers (.written next) (.written next')
  /-- Both log the same message. -/
  | log (level : LogLevel) (message : Text) {next : Script α} {next' : Script β}
      (h : Related c answers next next') :
      Related c answers (.log level message next) (.log level message next')

/-- Going on with related answers keeps scripts related. -/
theorem Script.Related.bind {α β γ δ : Type} {answers : α → β → Prop} {after : γ → δ → Prop}
    {s : Script α} {s' : Script β} (hs : s.Related c answers s') {f : α → Script γ}
    {g : β → Script δ} (hf : ∀ a b, answers a b → (f a).Related c after (g b)) :
    (s.bind f).Related c after (s'.bind g) := by
  induction hs with
  | done h => exact hf _ _ h
  | stop why => exact .stop why
  | render branch he h ih => exact .render branch he ih
  | partialNamed hname hcontext h ih => exact .partialNamed hname hcontext ih
  | resolve path h ih => exact .resolve path ih
  | readVariable name h ih => exact .readVariable name ih
  | newStream hitems h ih => exact .newStream hitems ih
  | read serial hitems count h ih => exact .read serial hitems count ih
  | write houtput h ih => exact .write houtput ih
  | written h ih => exact .written ih
  | log level message h ih => exact .log level message ih

/-- Two helpers are related if they do related things when they are called by sections, or by
anything else, in a related way. -/
def Helper.Related (c : Comparison) (isBlock : Bool) (h k : Helper) : Prop :=
  ∀ i j : Invocation, i.Related c j → i.isBlock = isBlock →
    (h.handle i).Related c (c.Answers isBlock) (k.handle j)

end Stencil
