import Stencil.Proofs.Rendering.Failure
import Stencil.Proofs.Rendering.Level

/-!
# What helpers pass on

A helper raises what is raised on its behalf (`SessionM.onBehalf`).  Only an error that is none of
templates becomes another one by that, so it makes no difference to anything that fails in other
ways (`SessionM.IsPassedOn.onBehalf_eq`), and where several things are done one after another, it
makes one to each of them (`SessionM.onBehalf_concat`).

An expression cannot fail with such an error at all: what is asked for by a call in it has been
passed on by the helper of that call (`Rendering.evaluate_isPassedOn`).
-/

set_option autoImplicit false

namespace Stencil

open SessionM (Ensures)

/-- What a helper has passed on is passed on by others. -/
theorem Failure.isPassedOn_passing (e : Failure) (name : Text) (position : Position) :
    (e.passing name position).IsPassedOn := by
  cases e with
  | _ => exact fun _ _ => rfl

/-- What a helper raises itself is passed on by others. -/
theorem Raised.isPassedOn_toFailure (why : Raised) (name : Text) (position : Position) :
    (why.toFailure name position).IsPassedOn := by
  cases why with
  | _ => exact fun _ _ => rfl

namespace SessionM

variable {α β : Type} {name : Text} {position : Position}

/-- An operation whose failures are passed on by helpers as they are. -/
abbrev IsPassedOn (x : SessionM α) : Prop :=
  x.FailsOnly (fun _ => True) Failure.IsPassedOn

theorem isPassedOn_ofExcept (r : Except TemplateError α) : (ofExcept r).IsPassedOn :=
  .ofExcept fun e _ => Failure.isPassedOn_template e

theorem isPassedOn_onBehalf (x : SessionM α) (name : Text) (position : Position) :
    (x.onBehalf name position).IsPassedOn := by
  intro s _
  rw [run_onBehalf]
  cases x.run s with
  | ok a t => exact ⟨trivial, trivial⟩
  | error e t => exact ⟨trivial, e.isPassedOn_passing name position⟩

end SessionM

/-! ## Expressions -/

section Scripts

variable {r : Rendering} {partials : PartialRenderer}

/-- What is asked for by a script has been passed on by its helper, and so has what it raises. -/
theorem Script.run_isPassedOn {site : CallSite} {α : Type} (script : Script α) (output : Text) :
    (script.run r partials site output).IsPassedOn := by
  induction script generalizing output with
  | done answer => exact .pure trivial
  | stop why => exact .throw (why.isPassedOn_toFailure _ _)
  | render branch e next ih =>
    exact (SessionM.isPassedOn_onBehalf _ _ _).andThen fun t => ih t output
  | partialNamed name context next ih =>
    exact (SessionM.isPassedOn_onBehalf _ _ _).andThen fun t => ih t output
  | resolve path next ih =>
    refine (SessionM.isPassedOn_ofExcept _).andThen fun p => ?_
    exact (SessionM.isPassedOn_ofExcept _).andThen fun v => ih v output
  | readVariable name next ih => exact ih _ output
  | newStream items next ih =>
    have hstream : (SessionM.newStream items).IsPassedOn := fun _ _ => ⟨trivial, trivial⟩
    exact hstream.andThen fun v => ih v output
  | read serial items count next ih =>
    have hread : (SessionM.read serial items count).IsPassedOn := fun _ _ => ⟨trivial, trivial⟩
    exact hread.andThen fun vs => ih vs output
  | write text next ih => exact ih _
  | written next ih => exact ih _ output
  | log level message next ih =>
    have hrecord : (SessionM.record [.message level message]).IsPassedOn :=
      .record fun _ _ => trivial
    exact hrecord.andThen fun _ => ih output

namespace Rendering

theorem helperFor_isPassedOn (p : Path) (position : Position) :
    (r.helperFor p position).IsPassedOn := by
  rw [helperFor]
  split
  · exact .pure trivial
  · split
    · exact (Ensures.record fun _ _ => trivial).andThen fun _ => .pure trivial
    · exact .throw (Failure.isPassedOn_template _)

mutual

/-- **What an expression fails with is passed on by helpers as it is.** -/
theorem evaluate_isPassedOn (f : Frame) :
    ∀ e : Expr, (r.evaluate partials f e).IsPassedOn
  | .path p => by
    rw [evaluate]
    exact SessionM.isPassedOn_ofExcept _
  | .literal source literal => by
    rw [evaluate]
    exact .pure trivial
  | .call source head params named => by
    have hparams := arguments_isPassedOn f params
    have hnamed := namedArguments_isPassedOn f named
    rw [evaluate]
    refine (helperFor_isPassedOn head .none).andThen fun helper => ?_
    refine hparams.andThen fun vs => hnamed.andThen fun entries => ?_
    exact (Script.run_isPassedOn _ []).andThen fun _ => .pure trivial

theorem arguments_isPassedOn (f : Frame) :
    ∀ es : List Expr, (r.arguments partials f es).IsPassedOn
  | [] => by
    rw [arguments]
    exact .pure trivial
  | e :: es => by
    have hvalue := evaluate_isPassedOn f e
    have hrest := arguments_isPassedOn f es
    rw [arguments]
    split
    · exact hrest.andThen fun _ => .pure trivial
    · exact hvalue.andThen fun _ => hrest.andThen fun _ => .pure trivial

theorem namedArguments_isPassedOn (f : Frame) :
    ∀ es : List (Text × Expr), (r.namedArguments partials f es).IsPassedOn
  | [] => by
    rw [namedArguments]
    exact .pure trivial
  | (name, e) :: es => by
    have hvalue := evaluate_isPassedOn f e
    have hrest := namedArguments_isPassedOn f es
    rw [namedArguments]
    split
    · exact hrest.andThen fun _ => .pure trivial
    · exact hvalue.andThen fun _ => hrest.andThen fun _ => .pure trivial

end

/-! ## Levels of nesting -/

end Rendering

end Scripts

end Stencil
