import Stencil.Proofs.Engine.Steps

/-!
# Strict resolution only adds failures

With strict resolution a path that leads nowhere is an error.  Nothing else follows from it: a
rendering with strict resolution fails with that error, or it comes to the same end as without.

The strict flag is looked at when a path is resolved and nowhere else, and there it makes no
difference but the error (`Frame.resolve_strict`).  It is a part of the options that a template is
compiled with, so the templates on the two sides are not equal; but they differ in nothing else
(`Template.compile_withStrict`), and a strict template stands for the same one that is not strict,
apart from that failure (`standsFor_stricter`).
-/

set_option autoImplicit false

namespace Stencil

/-! ## Resolving a path -/

theorem Frame.found_strict (p : Path) (segment : Text) (v : Value) :
    found p true segment v = found p false segment v ∨
      found p true segment v = .error (.undefinedVariable p.source segment) := by
  cases hv : v.isUndefined with
  | true => exact .inr (by simp [found, hv])
  | false => exact .inl (by simp [found, hv])

theorem Frame.follow_strict (p : Path) (v : Value) (segments : List Text) :
    follow p true v segments = follow p false v segments ∨
      ∃ segment, follow p true v segments = .error (.undefinedVariable p.source segment) := by
  induction segments generalizing v with
  | nil => exact .inl rfl
  | cons segment rest ih =>
    rcases found_strict p segment (v.field segment) with hsame | hundefined
    · rw [follow, follow, hsame]
      cases found p false segment (v.field segment) with
      | error e => exact .inl rfl
      | ok w => exact ih w
    · refine .inr ⟨segment, ?_⟩
      rw [follow, hundefined]

/-- **Strict resolution leads to the same value or fails** because a segment is not found. -/
theorem Frame.resolve_strict (f : Frame) (p : Path) :
    f.resolve p true = f.resolve p false ∨
      ∃ segment, f.resolve p true = .error (.undefinedVariable p.source segment) := by
  rw [resolve, resolve]
  cases ancestor? p.depth f with
  | none => exact .inl rfl
  | some f =>
    cases p.segments with
    | nil => exact .inl rfl
    | cons segment rest =>
      rcases found_strict p segment (f.start p.isData segment) with hsame | hundefined
      · simp only [hsame]
        cases found p false segment (f.start p.isData segment) with
        | error e => exact .inl rfl
        | ok v => exact follow_strict p v rest
      · exact .inr ⟨segment, by simp only [hundefined]⟩

/-! ## Strict templates -/

/-- The options with strict resolution or without. -/
def CompileOptions.withStrict (o : CompileOptions) (strict : Bool) : CompileOptions :=
  { o with strict }

/-- The template with strict resolution or without. -/
def Template.withStrict (t : Template) (strict : Bool) : Template :=
  { t with options := t.options.withStrict strict }

/-- The failure of strict resolution. -/
def Failure.IsUndefined (e : Failure) : Prop :=
  ∃ path segment, e = .template (.undefinedVariable path segment)

/-- A template differs from another at most in being strict where the other one is not. -/
def Template.Stricter (t u : Template) : Prop :=
  t = u ∨ t = u.withStrict true ∧ u.options.strict = false

theorem Template.ofNodes_withStrict (known : KnownHelpers) (o : CompileOptions)
    (name source : Text) (nodes : List Node) (strict : Bool) :
    Template.ofNodes known (o.withStrict strict) name source nodes =
      (Template.ofNodes known o name source nodes).map (Template.withStrict · strict) := by
  rw [ofNodes, ofNodes]
  cases Survey.walk known ⟨[], []⟩ nodes <;> rfl

/-- **Compiling does not look at the strict flag.** -/
theorem Template.compile_withStrict (known : KnownHelpers) (o : CompileOptions)
    (name source : Text) (strict : Bool) :
    (Template.compile known (o.withStrict strict) name source).result =
      (Template.compile known o name source).result.map (Template.withStrict · strict) := by
  have hdelimiters : (o.withStrict strict).delimiters = o.delimiters := rfl
  simp only [compile, hdelimiters]
  cases (scan o.delimiters source).finish with
  | error e => rfl
  | ok c =>
    dsimp only
    cases Node.ofTokens (scan o.delimiters source).tokens with
    | error e => rfl
    | ok nodes =>
      dsimp only
      rw [ofNodes_withStrict]
      cases ofNodes known o name source nodes with
      | error e => rfl
      | ok t => rfl

/-- What is compiled with strict resolution stands for what is compiled without. -/
theorem CompileOptions.alike_withStrict (o : CompileOptions) :
    CompileOptions.Alike Template.Stricter (o.withStrict true) (o.withStrict false) := by
  intro known name source
  rw [Template.compile_withStrict, Template.compile_withStrict]
  cases (Template.compile known o name source).result with
  | error e => exact .error e
  | ok t => exact .ok (.inr ⟨rfl, rfl⟩)

/-- A stricter template stands for the other one, apart from the failure of strict resolution. -/
theorem standsFor_stricter : StandsFor Template.Stricter Failure.IsUndefined where
  refl _ := .inl rfl
  nodes := by
    rintro t u (rfl | ⟨rfl, -⟩)
    · rfl
    · rfl
  stringParams := by
    rintro t u (rfl | ⟨rfl, -⟩)
    · rfl
    · rfl
  resolve := by
    rintro t u (rfl | ⟨rfl, hlax⟩) f p
    · exact .inl rfl
    · rw [hlax]
      refine (f.resolve_strict p).imp_right ?_
      rintro ⟨segment, hundefined⟩
      exact ⟨_, hundefined, p.source, segment, rfl⟩
  passed := by
    rintro _ ⟨path, segment, rfl⟩
    exact Failure.isPassedOn_template _
  exhausted := by
    rintro reason ⟨path, segment, h⟩
    exact absurd h (by simp)

/-! ## Strict engines -/

/-- The configuration with strict resolution or without. -/
def EngineConfig.withStrict (c : EngineConfig) (strict : Bool) : EngineConfig :=
  { c with strict }

theorem EngineConfig.compileOptions_withStrict (c : EngineConfig) :
    Except.Rel (CompileOptions.Alike Template.Stricter) (c.withStrict true).compileOptions
      (c.withStrict false).compileOptions := by
  have h : ∀ strict, (c.withStrict strict).compileOptions =
      c.compileOptions.map (CompileOptions.withStrict · strict) := by
    intro strict
    simp only [compileOptions, withStrict]
    split <;> rfl
  rw [h, h]
  cases c.compileOptions with
  | error e => exact .error e
  | ok o => exact .ok o.alike_withStrict

namespace Engine

/-- The engine with strict resolution or without. -/
def withStrict (e : Engine) (strict : Bool) : Engine :=
  { e with env := { e.env with config := e.env.config.withStrict strict } }

/-- Compiles a source with some options and renders the template. -/
def compileAndRender (e : Engine) (name source : Text) (options : CompileOptions) (data : Value) :
    Except Failure Text × Engine :=
  match e.compile name source (some options) with
  | (.ok h, e) => e.render h data
  | (.error failure, e) => (.error failure, e)

theorem alike_withStrict {e : Engine} (h : e.session.store.Coherent e.env.helpers.known) :
    (e.withStrict true).Alike Template.Stricter Failure.IsUndefined (e.withStrict false) :=
  ⟨⟨rfl, rfl, rfl, .inl rfl, e.env.config.compileOptions_withStrict⟩,
    Session.alike_self standsFor_stricter.refl h⟩

/-- What strict resolution comes to in comparison with what comes out without: it fails because a
path leads nowhere, or it comes to the same. -/
def OnlyAddsUndefined (strict lax : Except Failure Text) : Prop :=
  (∃ path segment, strict = .error (.template (.undefinedVariable path segment))) ∨ strict = lax

theorem Performed.onlyAddsUndefined {templates : Template → Template → Prop}
    {x y : Except Failure Text × Engine}
    (h : Performed templates Failure.IsUndefined Eq x y) : OnlyAddsUndefined x.1 y.1 := by
  refine h.result.imp_left ?_
  rintro ⟨_, hx, path, segment, rfl⟩
  exact ⟨path, segment, hx⟩

/-- Compiling with strict resolution or without, and rendering what comes out. -/
theorem Alike.compileAndRender {e : Engine}
    (h : e.Alike Template.Stricter Failure.IsUndefined e) (name source : Text)
    (options : CompileOptions) (data : Value) :
    Performed Template.Stricter Failure.IsUndefined Eq
      (e.compileAndRender name source (options.withStrict true) data)
      (e.compileAndRender name source (options.withStrict false) data) := by
  have hkeys : Except.Rel Template.Stricter
      (CacheKey.compilation e.env.helpers.known ⟨name, source, options.withStrict true⟩).result
      (CacheKey.compilation e.env.helpers.known ⟨name, source, options.withStrict false⟩).result :=
    options.alike_withStrict e.env.helpers.known name source
  have hcompile : Performed Template.Stricter Failure.IsUndefined
      (fun h h' => Template.Stricter h.template h'.template)
      (e.compile name source (some (options.withStrict true)))
      (e.compile name source (some (options.withStrict false))) :=
    h.perform (Environment.compileKey_lockstep rfl rfl hkeys)
  rw [Engine.compileAndRender, Engine.compileAndRender]
  generalize e.compile name source (some (options.withStrict true)) = left at hcompile ⊢
  generalize e.compile name source (some (options.withStrict false)) = right at hcompile ⊢
  cases hcompile with
  | alike hresult hengines =>
    cases hresult with
    | ok ht => exact hengines.render standsFor_stricter ht data
    | error failure => exact .alike (.error failure) hengines
  | excused he => exact .excused he

/-- **Strict resolution only adds failures.**

* Two engines that differ in nothing but strict resolution give the same answers to the same steps,
  apart from the strictness of the templates in them, until the strict one fails because a path
  leads nowhere.
* An engine that any steps have led to renders a source with strict resolution as it does without,
  or fails in that way; that is so whether the configuration or the options of the template ask for
  strict resolution. -/
theorem strict_onlyAddsUndefined (config : EngineConfig) (loader : Option Loader)
    (escape : Option Escaper) (tree : FileTree) (next : Nat) (steps : List Step) :
    Followed Template.Stricter Failure.IsUndefined
      (((create (config.withStrict true) loader escape tree).withStreams next).follow [] steps)
      (((create (config.withStrict false) loader escape tree).withStreams next).follow [] steps) ∧
    let e := (((create config loader escape tree).withStreams next).follow [] steps).2
    (∀ source data, OnlyAddsUndefined ((e.withStrict true).renderSource source data).1
      ((e.withStrict false).renderSource source data).1) ∧
    ∀ name source (options : CompileOptions) data, OnlyAddsUndefined
      (e.compileAndRender name source (options.withStrict true) data).1
      (e.compileAndRender name source (options.withStrict false) data).1 := by
  refine ⟨?_, ?_⟩
  · have henv : (create (config.withStrict true) loader escape tree).env.Alike Template.Stricter
        Failure.IsUndefined (create (config.withStrict false) loader escape tree).env :=
      ⟨rfl, rfl, rfl, .inl rfl, config.compileOptions_withStrict⟩
    exact follow_alike standsFor_stricter (alike_of_env rfl rfl henv next) .nil steps
  · intro e
    have hcoherent := coherent_follow_create config loader escape tree next steps
    have hself : e.Alike Template.Stricter Failure.IsUndefined e :=
      ⟨Environment.alike_refl standsFor_stricter.refl _,
        Session.alike_self standsFor_stricter.refl hcoherent⟩
    refine ⟨fun source data => ?_, fun name source options data => ?_⟩
    · have hrender := (alike_withStrict hcoherent).renderSource standsFor_stricter source data
      exact hrender.onlyAddsUndefined
    · exact (hself.compileAndRender name source options data).onlyAddsUndefined

end Engine

end Stencil
