import Stencil.Proofs.Engine.Coherent
import Stencil.Proofs.Rendering.Failure
import Stencil.Proofs.SourceError

/-!
# What looking for a partial fails with

A partial that is not registered is loaded and compiled.  So when it cannot be had, there is none of
its name, or its source or the delimiters of the configuration are refused, or looking for it has
raised an error, whatever the session is (`Environment.partialNamed_loads`).
-/

set_option autoImplicit false

namespace Stencil

/-- Whether an error is one of loading a partial. -/
def TemplateError.isOfLoading : TemplateError → Bool
  | .partialNotFound _ => true
  | e => e.isOfSource

/-- A failure of compiling a source. -/
def Failure.IsOfSource (e : Failure) : Prop :=
  ∃ error, e = .template error ∧ error.isOfSource = true

/-- A failure of loading a partial: an error of templates, or one that its loader raises. -/
def Failure.IsOfLoading (e : Failure) : Prop :=
  (∃ error, e = .template error ∧ error.isOfLoading = true) ∨ ∃ error, e = .foreign error

/-- Whatever a source is refused for is an error of loading it. -/
theorem TemplateError.isOfLoading_of_isOfSource {e : TemplateError} (h : e.isOfSource = true) :
    e.isOfLoading = true := by
  cases e with
  | partialNotFound name => rfl
  | _ => exact h

theorem Failure.IsOfSource.isOfLoading {e : Failure} (h : e.IsOfSource) : e.IsOfLoading := by
  obtain ⟨error, rfl, hsource⟩ := h
  exact .inl ⟨error, rfl, TemplateError.isOfLoading_of_isOfSource hsource⟩

/-- An operation that loads something fails with errors of loading only. -/
abbrev SessionM.Loads {α : Type} (x : SessionM α) : Prop :=
  x.FailsOnly (fun _ => True) Failure.IsOfLoading

namespace Environment

variable (env : Environment)

theorem compileKey_failsOnly (key : CacheKey) :
    (env.compileKey key).FailsOnly (fun _ => True) Failure.IsOfSource := by
  intro s _
  have hcompiling := env.compiling_compileKey key s
  generalize (env.compileKey key).run s = outcome at hcompiling ⊢
  cases hcompiling with
  | cached => exact ⟨trivial, trivial⟩
  | refused hresult =>
    exact ⟨trivial, _, rfl, Template.isOfSource_of_compile hresult⟩
  | compiled => exact ⟨trivial, trivial⟩

theorem compile_failsOnly (name source : Text) :
    (env.compile name source).FailsOnly (fun _ => True) Failure.IsOfSource := by
  refine (SessionM.Ensures.ofExcept fun e he => ?_).andThen fun options =>
    env.compileKey_failsOnly _
  rw [EngineConfig.compileOptions] at he
  split at he
  · exact absurd he (by simp)
  · obtain rfl := Except.error.inj he
    exact ⟨_, rfl, rfl⟩

theorem loadPartial_loads (loader : Loader) (name : Text) :
    (env.loadPartial loader name).Loads := by
  have hrecord (events : List Event) : (SessionM.record events).Loads :=
    .record fun _ _ => trivial
  rw [loadPartial]
  cases loader.fault? name with
  | some e => exact .throw (.inr ⟨e, rfl⟩)
  | none =>
  generalize loader.load name = found
  obtain ⟨events, source?⟩ := found
  refine (hrecord events).andThen fun _ => ?_
  cases source? with
  | none => exact .throw (.inl ⟨_, rfl, rfl⟩)
  | some source =>
    have hcompile : (env.compile name source).Loads :=
      (env.compile_failsOnly name source).mono fun _ => Failure.IsOfSource.isOfLoading
    refine (hrecord _).andThen fun _ => hcompile.andThen fun h => ?_
    exact fun _ _ => ⟨trivial, trivial⟩

/-- **A partial is not found, or cannot be compiled, or its loader raises an error**; there are no
other ways to fail. -/
theorem partialNamed_loads (name : Text) : (env.partialNamed name).Loads := by
  intro s _
  rw [partialNamed, SessionM.run_registeredOr]
  cases Table.get? s.store.partials name with
  | some h => exact ⟨trivial, trivial⟩
  | none =>
    cases env.loader with
    | none => exact ⟨trivial, .inl ⟨_, rfl, rfl⟩⟩
    | some loader =>
      have hload := env.loadPartial_loads loader name
        { s with store := s.store.lock name } trivial
      dsimp only
      rw [SessionM.run_locking, SessionM.run_registeredOr]
      cases Table.get? (s.store.lock name).partials name with
      | some h => exact ⟨trivial, trivial⟩
      | none =>
        dsimp only
        generalize (env.loadPartial loader name).run _ = outcome at hload ⊢
        cases outcome with
        | ok h t => exact ⟨trivial, trivial⟩
        | error e t => exact ⟨trivial, hload.2⟩

end Environment

end Stencil
