import Stencil.Proofs.Rendering.Comparison
import Stencil.Proofs.Rendering.Level

/-!
# The names of sections

Entering a section adds its name to the chain of levels, and the chain does nothing but be reported
when the levels become too many.  So it does not matter to a rendering what the sections around it
are called, except for the words of that one failure.

Two operations *match* if from every session they come to the same end, up to the names of sections
in the chain of such a failure (`SessionM.Matches`).  Whatever a rendering is made of preserves
this, and hence so does every level of nesting (`Rendering.renderer_matches`): inside two chains
that are the same but for the names of sections, the same is rendered.
-/

set_option autoImplicit false

namespace Stencil

/-- The level, with its name left out if it is a section. -/
def Label.anonymous : Label → Label
  | .block _ | .inverted _ => .block []
  | .partialNamed name => .partialNamed name

/-- The failure, with the names of sections left out of the chain that it reports. -/
def Failure.anonymous : Failure → Failure
  | .template (.recursionLimit limit chain) =>
    .template (.recursionLimit limit (chain.map Label.anonymous))
  | e => e

/-- What becomes of a failure that a helper passes on does not depend on the names of sections. -/
theorem Failure.anonymous_passing (name : Text) (position : Position) (e : Failure) :
    (e.passing name position).anonymous = e.anonymous.passing name position := by
  cases e with
  | template e => cases e <;> rfl
  | _ => rfl

namespace SessionM

variable {α β : Type}

/-- An outcome, with the names of sections left out of its failure. -/
def anonymousOutcome : EStateM.Result Failure Session α → EStateM.Result Failure Session α
  | .ok a s => .ok a s
  | .error e s => .error e.anonymous s

/-- Two operations match if from every session they come to the same end, up to the names of
sections in the failure. -/
def Matches (x y : SessionM α) : Prop :=
  ∀ s : Session, anonymousOutcome (x.run s) = anonymousOutcome (y.run s)

namespace Matches

theorem refl (x : SessionM α) : x.Matches x :=
  fun _ => rfl

theorem symm {x y : SessionM α} (h : x.Matches y) : y.Matches x :=
  fun s => (h s).symm

theorem trans {x y z : SessionM α} (h : x.Matches y) (h' : y.Matches z) : x.Matches z :=
  fun s => (h s).trans (h' s)

theorem throw {e e' : Failure} (h : e.anonymous = e'.anonymous) :
    Matches (MonadExcept.throw e : SessionM α) (MonadExcept.throw e') := by
  intro s
  show EStateM.Result.error e.anonymous s = .error e'.anonymous s
  rw [h]

/-- What goes on in a matching way after operations that match is a match. -/
theorem bind {x y : SessionM α} (hxy : x.Matches y) {f g : α → SessionM β}
    (h : ∀ a, (f a).Matches (g a)) : (x >>= f).Matches (y >>= g) := by
  intro s
  have hrun := hxy s
  rw [EStateM.run_bind, EStateM.run_bind]
  generalize x.run s = left at hrun ⊢
  generalize y.run s = right at hrun ⊢
  cases left with
  | ok a t =>
    cases right with
    | ok b u =>
      obtain ⟨rfl, rfl⟩ := EStateM.Result.ok.inj hrun
      exact h a t
    | error e u => exact absurd hrun (by simp [anonymousOutcome])
  | error e t =>
    cases right with
    | ok b u => exact absurd hrun (by simp [anonymousOutcome])
    | error e' u =>
      obtain ⟨he, rfl⟩ := EStateM.Result.error.inj hrun
      show EStateM.Result.error e.anonymous t = .error e'.anonymous t
      rw [he]

/-- The same operation, gone on with in a matching way. -/
theorem bind_left {x : SessionM α} {f g : α → SessionM β} (h : ∀ a, (f a).Matches (g a)) :
    (x >>= f).Matches (x >>= g) :=
  (refl x).bind h

/-- Operations that match, gone on with in the same way. -/
theorem bind_right {x y : SessionM α} (hxy : x.Matches y) (f : α → SessionM β) :
    (x >>= f).Matches (y >>= f) :=
  hxy.bind fun a => refl (f a)

/-- Catching failures, which are dealt with in a matching way. -/
theorem tryCatch {x y : SessionM α} (hxy : x.Matches y) {handle handle' : Failure → SessionM α}
    (h : ∀ e e' : Failure, e.anonymous = e'.anonymous → (handle e).Matches (handle' e')) :
    Matches (MonadExcept.tryCatch x handle) (MonadExcept.tryCatch y handle') := by
  intro s
  have hrun := hxy s
  rw [Lockstep.run_tryCatch, Lockstep.run_tryCatch]
  generalize x.run s = left at hrun ⊢
  generalize y.run s = right at hrun ⊢
  cases left with
  | ok a t =>
    cases right with
    | ok b u => exact hrun
    | error e u => exact absurd hrun (by simp [anonymousOutcome])
  | error e t =>
    cases right with
    | ok b u => exact absurd hrun (by simp [anonymousOutcome])
    | error e' u =>
      obtain ⟨he, rfl⟩ := EStateM.Result.error.inj hrun
      exact h e e' he t

/-- What matches does so on behalf of the same helper. -/
theorem onBehalf {x y : SessionM α} (h : x.Matches y) (name : Text) (position : Position) :
    (x.onBehalf name position).Matches (y.onBehalf name position) := by
  refine h.tryCatch fun e e' he => throw ?_
  rw [Failure.anonymous_passing, Failure.anonymous_passing, he]

/-- Putting together outputs that match. -/
theorem concat {output output' : α → SessionM Text} {as : List α}
    (h : ∀ a ∈ as, (output a).Matches (output' a)) :
    (SessionM.concat output as).Matches (SessionM.concat output' as) := by
  induction as with
  | nil => exact refl _
  | cons a as ih =>
    have hrest := ih fun b hb => h b (List.mem_cons_of_mem a hb)
    exact (h a List.mem_cons_self).bind fun _ => hrest.bind_right _

end Matches

end SessionM

open SessionM (Matches)

/-! ## What matches -/

/-- Partials are rendered in a matching way. -/
def PartialRenderer.Matches (a b : PartialRenderer) : Prop :=
  ∀ name f, (a name f).Matches (b name f)

/-- Nodes and partials are rendered in a matching way. -/
structure Renderer.Matches (a b : Renderer) : Prop where
  /-- Nodes are. -/
  nodes : ∀ nodes f, (a.nodes nodes f).Matches (b.nodes nodes f)
  /-- Partials are. -/
  partialNamed : PartialRenderer.Matches a.partialNamed b.partialNamed

/-- The next level is entered in a matching way. -/
def Entrance.Matches (a b : Entrance) : Prop :=
  ∀ (label : Label) (act act' : Renderer → SessionM Text),
    (∀ inner inner' : Renderer, inner.Matches inner' → (act inner).Matches (act' inner')) →
    (a label act).Matches (b label act')

/-- The branches of two calls match if a helper cannot tell them apart by what it is told, and they
are rendered in a matching way. -/
structure Branches.Matches (a b : Branches) : Prop where
  /-- Both have another branch, or none has. -/
  hasInverse : a.hasInverse = b.hasInverse
  /-- The branches are rendered in a matching way. -/
  render : ∀ branch f, (a.render branch f).Matches (b.render branch f)

section Helpers

variable {r : Rendering} {partials partials' : PartialRenderer}

/-- **A script is served in a matching way** at places that differ in matching branches only. -/
theorem Script.run_matches (hp : partials.Matches partials') {name : Text} {position : Position}
    {f : Frame} {branches branches' : Option Branches}
    (hbranches : Option.Rel Branches.Matches branches branches') {α : Type} (s : Script α)
    (output : Text) :
    (s.run r partials ⟨name, position, f, branches⟩ output).Matches
      (s.run r partials' ⟨name, position, f, branches'⟩ output) := by
  induction s generalizing output with
  | done answer => exact .refl _
  | stop why => exact .refl _
  | render branch e next ih =>
    have hbranch : (CallSite.renderBranch ⟨name, position, f, branches⟩ branch e).Matches
        (CallSite.renderBranch ⟨name, position, f, branches'⟩ branch e) := by
      cases hbranches with
      | none => exact .refl _
      | some h => exact h.render branch _
    exact (hbranch.onBehalf _ _).bind fun t => ih t output
  | partialNamed name context next ih =>
    exact ((hp name _).onBehalf _ _).bind fun t => ih t output
  | resolve path next ih => exact .bind_left fun p => .bind_left fun v => ih v output
  | readVariable name next ih => exact ih _ output
  | newStream items next ih => exact .bind_left fun v => ih v output
  | read serial items count next ih => exact .bind_left fun vs => ih vs output
  | write text next ih => exact ih _
  | written next ih => exact ih _ output
  | log level message next ih => exact .bind_left fun _ => ih output

/-- A helper is called in a matching way there, because it is told the same. -/
theorem Rendering.call_matches (hp : partials.Matches partials') {name : Text}
    {position : Position} {f : Frame} {branches branches' : Option Branches}
    (hbranches : Option.Rel Branches.Matches branches branches') (helper : Helper)
    (params : List Value) (named : Table Value) :
    (r.call partials ⟨name, position, f, branches⟩ helper params named).Matches
      (r.call partials' ⟨name, position, f, branches'⟩ helper params named) := by
  have hinvocation :
      CallSite.invocation ⟨name, position, f, branches⟩ r.stringParams params named =
        CallSite.invocation ⟨name, position, f, branches'⟩ r.stringParams params named := by
    cases hbranches with
    | none => rfl
    | some h => simp only [CallSite.invocation, Option.isSome_some, Option.any_some, h.hasInverse]
  rw [call, call, hinvocation]
  exact Script.run_matches hp hbranches _ _

end Helpers

/-! ## Expressions -/

namespace Rendering

variable {r : Rendering}

section Partials

variable {partials partials' : PartialRenderer}

mutual

/-- **An expression is evaluated in a matching way** if partials are rendered in one. -/
theorem evaluate_matches (hp : partials.Matches partials') (f : Frame) :
    ∀ e : Expr, (r.evaluate partials f e).Matches (r.evaluate partials' f e)
  | .path p => by
    rw [evaluate, evaluate]
    exact .refl _
  | .literal source literal => by
    rw [evaluate, evaluate]
    exact .refl _
  | .call source head params named => by
    have hparams := arguments_matches hp f params
    have hnamed := namedArguments_matches hp f named
    rw [evaluate, evaluate]
    refine .bind_left fun helper => hparams.bind fun vs => hnamed.bind fun entries => ?_
    exact (call_matches hp .none helper vs _).bind_right _

theorem arguments_matches (hp : partials.Matches partials') (f : Frame) :
    ∀ es : List Expr, (r.arguments partials f es).Matches (r.arguments partials' f es)
  | [] => by
    rw [arguments, arguments]
    exact .refl _
  | e :: es => by
    have hvalue := evaluate_matches hp f e
    have hrest := arguments_matches hp f es
    rw [arguments, arguments]
    split
    · exact .bind_left fun v => hrest.bind_right _
    · exact hvalue.bind fun v => hrest.bind_right _

theorem namedArguments_matches (hp : partials.Matches partials') (f : Frame) :
    ∀ es : List (Text × Expr),
      (r.namedArguments partials f es).Matches (r.namedArguments partials' f es)
  | [] => by
    rw [namedArguments, namedArguments]
    exact .refl _
  | (name, e) :: es => by
    have hvalue := evaluate_matches hp f e
    have hrest := namedArguments_matches hp f es
    rw [namedArguments, namedArguments]
    split
    · exact .bind_left fun v => hrest.bind_right _
    · exact hvalue.bind fun v => hrest.bind_right _

end

end Partials

end Rendering

end Stencil
