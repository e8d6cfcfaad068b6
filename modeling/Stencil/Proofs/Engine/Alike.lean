import Mathlib.Data.List.Forall2
import Stencil.Engine.Request
import Stencil.Proofs.Engine.Coherent
import Stencil.Proofs.Rendering.Alike

/-!
# Engines that answer alike

Two engines are alike if they work with the same helpers, loader and escaper, compile every source
to templates that may stand for each other, and have come to sessions that are alike.  Then they
stay alike whatever both are asked for, and their answers differ in nothing but the templates in
them (`Engine.serve_alike`).

What it means that a template may stand for another is left open: `StandsFor` lists what is needed
of such a relation.  It also leaves room for failures that are excused on the left, after which
nothing is promised any more.
-/

set_option autoImplicit false

namespace Stencil

open SessionM (Lockstep Outcomes)

/-! ## Templates that stand for each other -/

/-- What is needed of a relation for the templates on its left to stand for those on its right,
apart from excused failures. -/
structure StandsFor (templates : Template → Template → Prop) (excused : Failure → Prop) :
    Prop where
  /-- A template stands for itself. -/
  refl : ∀ t, templates t t
  /-- Related templates have the same tree. -/
  nodes : ∀ {t u}, templates t u → t.nodes = u.nodes
  /-- They give helpers their parameters in the same way. -/
  stringParams : ∀ {t u}, templates t u → t.options.stringParams = u.options.stringParams
  /-- They resolve paths in the same way, or the left one fails and is excused. -/
  resolve : ∀ {t u}, templates t u → ∀ (f : Frame) (p : Path),
    f.resolve p t.options.strict = f.resolve p u.options.strict ∨
      ∃ e, f.resolve p t.options.strict = .error e ∧ excused (.template e)
  /-- No helper is excused for finding no room. -/
  exhausted : ∀ reason, ¬ excused (.exhausted reason)
  /-- Helpers pass on the failures that are excused. -/
  passed : ∀ e, excused e → e.IsPassedOn

/-- Two stores are alike if their partials stand for each other and their caches are coherent. -/
structure Store.Alike (templates : Template → Template → Prop) (known : KnownHelpers)
    (s t : Store) : Prop where
  /-- The partials have the same names in the same order, and stand for each other. -/
  partials : List.Forall₂
    (fun entry entry' => entry.1 = entry'.1 ∧ templates entry.2.template entry'.2.template)
    s.partials t.partials
  /-- The cache on the left is coherent. -/
  left : s.Coherent known
  /-- The cache on the right is coherent. -/
  right : t.Coherent known

/-- Two choices of options are alike if they compile every source to templates that stand for each
other, whichever helpers are known. -/
def CompileOptions.Alike (templates : Template → Template → Prop) (o o' : CompileOptions) : Prop :=
  ∀ known name source, Except.Rel templates (Template.compile known o name source).result
    (Template.compile known o' name source).result

/-- Two environments are alike if they agree in all but their configurations, and those compile
every source to templates that stand for each other. -/
structure Environment.Alike (templates : Template → Template → Prop) (excused : Failure → Prop)
    (q r : Environment) : Prop where
  /-- The helpers are the same. -/
  helpers : q.helpers = r.helpers
  /-- The loader is the same. -/
  loader : q.loader = r.loader
  /-- The escaper is the same. -/
  escape : q.escape = r.escape
  /-- As many levels may be entered, or the left one is excused for going too deep. -/
  depth : q.config.maxDepth = r.config.maxDepth ∨
    q.config.maxDepth ≤ r.config.maxDepth ∧
      ∀ limit chain, excused (.template (.recursionLimit limit chain))
  /-- Sources are compiled alike. -/
  options : Except.Rel (CompileOptions.Alike templates) q.config.compileOptions
    r.config.compileOptions

/-- Two engines are alike if their environments and their sessions are. -/
structure Engine.Alike (templates : Template → Template → Prop) (excused : Failure → Prop)
    (a b : Engine) : Prop where
  /-- The environments are alike. -/
  env : a.env.Alike templates excused b.env
  /-- The sessions are alike. -/
  session : a.session.Alike (Store.Alike templates a.env.helpers.known) b.session

variable {templates : Template → Template → Prop} {excused : Failure → Prop}

/-! ## Partials -/

theorem Store.Alike.related {s t : Store} {known : KnownHelpers}
    (h : s.Alike templates known t) :
    Table.Related (fun h h' : Handle => templates h.template h'.template) s.partials t.partials :=
  h.partials

/-- Registering templates that stand for each other keeps stores alike. -/
theorem Store.Alike.insert {s t : Store} {known : KnownHelpers}
    (h : s.Alike templates known t) (name : Text) {k k' : Handle}
    (hk : templates k.template k'.template) :
    Store.Alike templates known { s with partials := Table.insert s.partials name k }
      { t with partials := Table.insert t.partials name k' } :=
  ⟨h.related.insert name hk, h.left, h.right⟩

/-- A session is alike to itself if its cache is coherent. -/
theorem Session.alike_self (hrefl : ∀ t, templates t t) {s : Session} {known : KnownHelpers}
    (h : s.store.Coherent known) : s.Alike (Store.Alike templates known) s :=
  ⟨⟨List.forall₂_same.2 fun entry _ => ⟨rfl, hrefl entry.2.template⟩, h, h⟩, rfl, rfl, rfl⟩

/-! ## Compiling and rendering -/

namespace Environment

variable {q r : Environment} {known : KnownHelpers}

/-- Keys that are compiled alike are compiled in lockstep, whatever the caches hold. -/
theorem compileKey_lockstep (hq : q.helpers.known = known) (hr : r.helpers.known = known)
    {key key' : CacheKey} (hkey : Except.Rel templates (key.compilation known).result
      (key'.compilation known).result) :
    Lockstep (Store.Alike templates known) excused
      (fun h h' => templates h.template h'.template) (q.compileKey key) (r.compileKey key') := by
  refine compileKey_related ⟨fun h => h.left, fun h => h.right, ?_⟩ hq hr hkey
  intro s t s' t' h hs ht hleft hright
  exact ⟨by rw [hs, ht]; exact h.partials, hleft, hright⟩

theorem Alike.compile_lockstep (h : q.Alike templates excused r) (name source : Text) :
    Lockstep (Store.Alike templates q.helpers.known) excused
      (fun h h' => templates h.template h'.template) (q.compile name source)
      (r.compile name source) := by
  have hoptions := h.options
  rw [compile, compile]
  generalize q.config.compileOptions = options at hoptions
  generalize r.config.compileOptions = options' at hoptions
  cases hoptions with
  | ok ho =>
    have hknown : r.helpers.known = q.helpers.known := congrArg HelperRegistry.known h.helpers.symm
    exact compileKey_lockstep rfl hknown (ho q.helpers.known name source)
  | error e => exact .throw _

theorem Alike.loadPartial_lockstep (h : q.Alike templates excused r) (loader : Loader)
    (name : Text) :
    Lockstep (Store.Alike templates q.helpers.known) excused
      (fun h h' => templates h.template h'.template) (q.loadPartial loader name)
      (r.loadPartial loader name) := by
  rw [loadPartial, loadPartial]
  cases loader.fault? name with
  | some e => exact .throw _
  | none =>
  refine (Lockstep.record _).bind_eq fun _ => ?_
  split
  · exact .throw _
  · refine (Lockstep.record _).bind_eq fun _ => ?_
    refine (h.compile_lockstep name _).bind fun k k' hk => ?_
    exact (Lockstep.modifyStore fun _ _ hs => hs.insert name hk).bind_eq fun _ => .pure hk

theorem Alike.partialNamed_lockstep (h : q.Alike templates excused r) (name : Text) :
    Lockstep (Store.Alike templates q.helpers.known) excused
      (fun h h' => templates h.template h'.template) (q.partialNamed name)
      (r.partialNamed name) := by
  have hget : ∀ s t : Store, s.Alike templates q.helpers.known t →
      Option.Rel (fun h h' : Handle => templates h.template h'.template)
        (Table.get? s.partials name) (Table.get? t.partials name) :=
    fun _ _ hs => hs.related.get? name
  rw [partialNamed, partialNamed, ← h.loader]
  refine .registeredOr hget ?_
  cases q.loader with
  | none => exact .throw _
  | some loader =>
    refine (Lockstep.registeredOr hget (h.loadPartial_lockstep loader name)).locking ?_ ?_
    · exact fun _ _ hs => ⟨hs.partials, hs.left, hs.right⟩
    · exact fun _ _ hs => ⟨hs.partials, hs.left, hs.right⟩

/-- Templates that stand for each other are rendered in environments that are alike. -/
theorem Alike.rendering_alike (h : q.Alike templates excused r)
    (htemplates : StandsFor templates excused) {t u : Template} (ht : templates t u) :
    (q.rendering t).Alike (Store.Alike templates q.helpers.known) excused (r.rendering u) := by
  refine ⟨h.helpers, h.escape, htemplates.stringParams ht, fun f p => ?_, fun name => ?_,
    htemplates.passed⟩
  · show Lockstep _ _ _ (SessionM.ofExcept (f.resolve p t.options.strict))
      (SessionM.ofExcept (f.resolve p u.options.strict))
    rcases htemplates.resolve ht f p with hsame | ⟨e, he, hexcused⟩
    · rw [hsame]
      exact .ofExcept (.refl (fun _ => rfl) _)
    · rw [he]
      exact .of_excused hexcused _
  · exact (h.partialNamed_lockstep name).mono fun _ _ => htemplates.nodes

theorem Alike.topRenderer_alike (h : q.Alike templates excused r)
    (htemplates : StandsFor templates excused) {t u : Template} (ht : templates t u) :
    (q.topRenderer t).Alike (Store.Alike templates q.helpers.known) excused (r.topRenderer u) := by
  refine Rendering.renderer_alike (h.rendering_alike htemplates ht) htemplates.exhausted ?_
  exact h.depth.imp (fun hdepth => ⟨hdepth, hdepth, rfl⟩) id

/-- **Templates that stand for each other are rendered in lockstep.** -/
theorem Alike.render_lockstep (h : q.Alike templates excused r)
    (htemplates : StandsFor templates excused) {t u : Template} (ht : templates t u)
    (data : Value) :
    Lockstep (Store.Alike templates q.helpers.known) excused Eq (q.render t data)
      (r.render u data) := by
  rw [render, render, htemplates.nodes ht]
  exact (h.topRenderer_alike htemplates ht).nodes _ _

end Environment

/-! ## Operations of an engine -/

namespace Engine

variable {α β : Type} {a b : Engine}

/-- How what two engines have come to and the results they have given are related. -/
inductive Performed (templates : Template → Template → Prop) (excused : Failure → Prop)
    (results : α → β → Prop) :
    Except Failure α × Engine → Except Failure β × Engine → Prop
  /-- The results are related and the engines are alike. -/
  | alike {x : Except Failure α} {y : Except Failure β} {a b : Engine}
      (hresult : Except.Rel results x y) (hengines : a.Alike templates excused b) :
      Performed templates excused results (x, a) (y, b)
  /-- The left one has failed and is excused. -/
  | excused {e : Failure} {a : Engine} {r : Except Failure β × Engine} (he : excused e) :
      Performed templates excused results (.error e, a) r

/-- The left one fails and is excused, or the results are the same. -/
theorem Performed.result {x y : Except Failure α × Engine}
    (h : Performed templates excused Eq x y) : (∃ e, x.1 = .error e ∧ excused e) ∨ x.1 = y.1 := by
  cases h with
  | alike hresult hengines =>
    cases hresult with
    | ok h => exact .inr (congrArg Except.ok h)
    | error e => exact .inr rfl
  | excused he => exact .inl ⟨_, rfl, he⟩

/-- What is done in lockstep is done alike. -/
theorem Alike.perform (h : a.Alike templates excused b) {results : α → β → Prop}
    {x : SessionM α} {y : SessionM β}
    (hxy : Lockstep (Store.Alike templates a.env.helpers.known) excused results x y) :
    Performed templates excused results (a.perform x) (b.perform y) := by
  have houtcomes := hxy _ _ h.session
  rw [Engine.perform, Engine.perform]
  generalize x.run a.session = left at houtcomes ⊢
  generalize y.run b.session = right at houtcomes ⊢
  cases houtcomes with
  | ok hresult halike => exact .alike (.ok hresult) ⟨h.env, halike⟩
  | error halike => exact .alike (.error _) ⟨h.env, halike⟩
  | excused he => exact .excused he

/-- Registering a helper empties the cache, so what was compiled with other helpers is gone. -/
theorem Alike.registerHelper (h : a.Alike templates excused b) (name : Value) (helper : Helper)
    (allowReserved : Bool) :
    Performed templates excused Eq (a.registerHelper name helper allowReserved)
      (b.registerHelper name helper allowReserved) := by
  rw [Engine.registerHelper, Engine.registerHelper, ← h.env.helpers]
  cases a.env.helpers.register name helper allowReserved with
  | error e => exact .alike (.error _) h
  | ok registered =>
    obtain ⟨helpers, events⟩ := registered
    refine .alike (.ok rfl) ⟨⟨rfl, h.env.loader, h.env.escape, h.env.depth, h.env.options⟩, ?_⟩
    have hempty (s : Store) : Store.Coherent helpers.known { s with cache := .empty } :=
      Store.coherent_of_cache_eq_empty rfl _
    refine ⟨⟨h.session.stores.partials, hempty _, hempty _⟩, h.session.nextStream,
      h.session.itemsRead, ?_⟩
    show (events.reverse ++ a.session.log).filter _ = (events.reverse ++ b.session.log).filter _
    rw [List.filter_append, List.filter_append, h.session.log]

theorem Alike.registerPartialFrom (h : a.Alike templates excused b) (name : Text)
    {x y : SessionM Handle}
    (hxy : Lockstep (Store.Alike templates a.env.helpers.known) excused
      (fun h h' => templates h.template h'.template) x y) :
    Performed templates excused (fun h h' => templates h.template h'.template)
      (a.registerPartialFrom name x) (b.registerPartialFrom name y) := by
  rw [Engine.registerPartialFrom, Engine.registerPartialFrom]
  split
  · exact .alike (.error _) h
  · refine h.perform (hxy.bind fun k k' hk => ?_)
    refine (Lockstep.modifyStore fun _ _ hs => hs.insert name hk).bind_eq fun _ => ?_
    exact (Lockstep.record _).bind_eq fun _ => .pure hk

theorem Alike.define (h : a.Alike templates excused b) (name source : Text) :
    (a.define name source).Alike templates excused (b.define name source) := by
  refine ⟨⟨h.env.helpers, ?_, h.env.escape, h.env.depth, h.env.options⟩, h.session⟩
  exact congrArg (Option.map fun l => l.define name source) h.env.loader

theorem Alike.compile (h : a.Alike templates excused b)
    (htemplates : StandsFor templates excused) (name source : Text)
    (options : Option CompileOptions) :
    Performed templates excused (fun h h' => templates h.template h'.template)
      (a.compile name source options) (b.compile name source options) := by
  cases options with
  | none => exact h.perform (h.env.compile_lockstep name source)
  | some options =>
    have hknown : b.env.helpers.known = a.env.helpers.known :=
      congrArg HelperRegistry.known h.env.helpers.symm
    exact h.perform (Environment.compileKey_lockstep rfl hknown (.refl htemplates.refl _))

theorem Alike.render (h : a.Alike templates excused b) (htemplates : StandsFor templates excused)
    {k k' : Handle} (hk : templates k.template k'.template) (data : Value) :
    Performed templates excused Eq (a.render k data) (b.render k' data) :=
  h.perform (h.env.render_lockstep htemplates hk data)

theorem Alike.renderSource (h : a.Alike templates excused b)
    (htemplates : StandsFor templates excused) (source : Text) (data : Value) :
    Performed templates excused Eq (a.renderSource source data) (b.renderSource source data) :=
  h.perform ((h.env.compile_lockstep _ source).bind fun _ _ hk =>
    h.env.render_lockstep htemplates hk data)

end Engine

/-! ## Requests and answers -/

/-- Two requests are alike if they are the same up to the templates in them, which stand for each
other. -/
inductive Request.Alike (templates : Template → Template → Prop) : Request → Request → Prop
  /-- The same request. -/
  | same (q : Request) : Alike templates q q
  /-- Requests to register a template as a partial. -/
  | registerPartial (name : Text) {h h' : Handle} (ht : templates h.template h'.template) :
      Alike templates (.registerPartial name h) (.registerPartial name h')
  /-- Requests to render a template. -/
  | render {h h' : Handle} (ht : templates h.template h'.template) (data : Value) :
      Alike templates (.render h data) (.render h' data)
  /-- Requests to render a template node by node. -/
  | renderNodes {h h' : Handle} (ht : templates h.template h'.template) (data : Value) :
      Alike templates (.renderNodes h data) (.renderNodes h' data)

/-- Two answers are alike if they are the same up to the templates in them, which stand for each
other. -/
inductive Answer.Alike (templates : Template → Template → Prop) : Answer → Answer → Prop
  /-- The same answer. -/
  | same (x : Answer) : Alike templates x x
  /-- Templates. -/
  | template {h h' : Handle} (ht : templates h.template h'.template) :
      Alike templates (.template h) (.template h')

/-- An answer that reports an excused failure. -/
inductive Answer.Excused (excused : Failure → Prop) : Answer → Prop
  /-- Nothing was achieved. -/
  | failed {e : Failure} (he : excused e) : Excused excused (.failed e)
  /-- Some nodes were rendered. -/
  | outputs (texts : List Text) {e : Failure} (he : excused e) :
      Excused excused (.outputs texts (some e))

/-- How two answers, and the engines that have given them, are related. -/
inductive Engine.Served (templates : Template → Template → Prop) (excused : Failure → Prop) :
    Answer × Engine → Answer × Engine → Prop
  /-- The answers and the engines are alike. -/
  | alike {x y : Answer} {a b : Engine} (hanswer : x.Alike templates y)
      (hengines : a.Alike templates excused b) : Served templates excused (x, a) (y, b)
  /-- The left answer is excused. -/
  | excused {x : Answer} {a : Engine} {r : Answer × Engine} (hx : x.Excused excused) :
      Served templates excused (x, a) r

namespace Engine

variable {a b : Engine}

theorem Performed.served {α β : Type} {results : α → β → Prop} {x : Except Failure α × Engine}
    {y : Except Failure β × Engine} (h : Performed templates excused results x y)
    {wrap : α → Answer} {wrap' : β → Answer}
    (hwrap : ∀ v w, results v w → (wrap v).Alike templates (wrap' w)) :
    Served templates excused (Answer.ofResult wrap x) (Answer.ofResult wrap' y) := by
  cases h with
  | alike hresult hengines =>
    cases hresult with
    | ok h => exact .alike (hwrap _ _ h) hengines
    | error e => exact .alike (.same _) hengines
  | excused he => exact .excused (.failed he)

theorem Alike.renderNodes (h : a.Alike templates excused b)
    (htemplates : StandsFor templates excused) {k k' : Handle}
    (hk : templates k.template k'.template) (data : Value) :
    Served templates excused (a.serve (.renderNodes k data)) (b.serve (.renderNodes k' data)) := by
  have hnode := (h.env.topRenderer_alike htemplates hk).nodes
  have houtputs := Lockstep.outputs
    (fun node (_ : node ∈ k.template.nodes) => hnode [node] (.ofData data)) h.session
  rw [serve, serve, Engine.renderNodes, Engine.renderNodes, Environment.renderNodes,
    Environment.renderNodes, ← htemplates.nodes hk]
  generalize SessionM.outputs _ k.template.nodes a.session = left at houtputs ⊢
  generalize SessionM.outputs _ k.template.nodes b.session = right at houtputs ⊢
  obtain ⟨texts, finish⟩ := left
  obtain ⟨texts', finish'⟩ := right
  obtain ⟨houtcomes, htexts⟩ := houtputs
  dsimp only at houtcomes htexts ⊢
  cases houtcomes with
  | ok hresult halike =>
    obtain rfl := htexts fun _ _ he => absurd he (by simp)
    exact .alike (.same _) ⟨h.env, halike⟩
  | @error e s t halike =>
    by_cases he : excused e
    · exact .excused (.outputs _ he)
    · obtain rfl := htexts fun e' _ he' => by
        obtain ⟨rfl, -⟩ := EStateM.Result.error.inj he'
        exact he
      exact .alike (.same _) ⟨h.env, halike⟩
  | excused he => exact .excused (.outputs _ he)

/-- **Engines that are alike answer alike**, as long as no failure is excused. -/
theorem serve_alike (h : a.Alike templates excused b) (htemplates : StandsFor templates excused)
    {p q : Request} (hpq : p.Alike templates q) :
    Served templates excused (a.serve p) (b.serve q) := by
  have hhandle : ∀ k k' : Handle, templates k.template k'.template →
      (Answer.template k).Alike templates (.template k') := fun _ _ => .template
  have houtput : ∀ t u : Text, t = u → (Answer.output t).Alike templates (.output u) := by
    rintro t _ rfl
    exact .same _
  cases hpq with
  | registerPartial name ht =>
    exact (h.registerPartialFrom name (Lockstep.pure ht)).served hhandle
  | render ht data => exact (h.render htemplates ht data).served houtput
  | renderNodes ht data => exact h.renderNodes htemplates ht data
  | same =>
    cases p with
    | registerHelper name helper allowReserved =>
      exact (h.registerHelper name helper allowReserved).served fun _ _ _ => .same _
    | registerPartial name k =>
      exact (h.registerPartialFrom name (Lockstep.pure (htemplates.refl _))).served hhandle
    | registerPartialSource name source =>
      exact (h.registerPartialFrom name (h.env.compile_lockstep name source)).served hhandle
    | define name source => exact .alike (.same _) (h.define name source)
    | compile name source options =>
      exact (h.compile htemplates name source options).served hhandle
    | template name => exact (h.perform (h.env.partialNamed_lockstep name)).served hhandle
    | render k data => exact (h.render htemplates (htemplates.refl _) data).served houtput
    | renderSource source data => exact (h.renderSource htemplates source data).served houtput
    | renderNodes k data => exact h.renderNodes htemplates (htemplates.refl _) data

end Engine

end Stencil
