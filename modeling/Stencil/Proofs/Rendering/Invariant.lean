import Stencil.Proofs.Rendering.Failure

/-!
# What a rendering keeps

A rendering changes the session that it works in by three things only: it logs what helpers say and
which of them are missing, it makes and reads streams, and it looks up partials.  So it keeps an
invariant that none of these breaks (`Environment.Maintains`), whatever the template is and wherever
it fails (`Environment.Maintains.renderer`).

The induction is the one that bounds how a rendering fails, with no bound at all.
-/

set_option autoImplicit false

namespace Stencil

/-- An operation keeps an invariant of the session, also when it fails. -/
abbrev SessionM.Preserves {α : Type} (invariant : Session → Prop) (x : SessionM α) : Prop :=
  x.Keeps invariant fun _ => True

/-- An invariant that nothing breaks that is done to a session in an environment. -/
structure Environment.Maintains (env : Environment) (invariant : Session → Prop) : Prop where
  /-- What is logged does not break it, if it has nothing to do with compiling. -/
  record : ∀ (s : Session) (events : List Event), (∀ e ∈ events, e.isOfCompiling = false) →
    invariant s → invariant { s with log := events.reverse ++ s.log }
  /-- Neither do the streams that are made and read. -/
  streams : ∀ (s : Session) (nextStream : Nat) (itemsRead : List (Nat × Nat)), invariant s →
    invariant { s with nextStream, itemsRead }
  /-- Neither does registering partials. -/
  partials : ∀ (s : Session) (partials : Table Handle), invariant s →
    invariant { s with store := { s.store with partials } }
  /-- Neither does compiling. -/
  compileKey : ∀ key, (env.compileKey key).Preserves invariant
  /-- Neither does looking up partials. -/
  partialNamed : ∀ name, (env.partialNamed name).Preserves invariant

variable {invariant : Session → Prop}

/-- Partials are rendered without breaking the invariant. -/
def PartialRenderer.Keeps (invariant : Session → Prop) (partials : PartialRenderer) : Prop :=
  ∀ name f, (partials name f).Preserves invariant

/-- Nodes and partials are rendered without breaking the invariant. -/
structure Renderer.Keeps (invariant : Session → Prop) (renderer : Renderer) : Prop where
  /-- Nodes are. -/
  nodes : ∀ nodes f, (renderer.nodes nodes f).Preserves invariant
  /-- Partials are. -/
  partialNamed : PartialRenderer.Keeps invariant renderer.partialNamed

namespace SessionM.Keeps

variable {α β : Type}

/-- What has preserved an invariant may go on with what preserves it. -/
theorem andThen {x : SessionM α} (hx : x.Preserves invariant) {f : α → SessionM β}
    (hf : ∀ a, (f a).Preserves invariant) : (x >>= f).Preserves invariant :=
  hx.bind fun a _ => hf a

theorem ofExcept (r : Except TemplateError α) : (SessionM.ofExcept r).Preserves invariant := by
  cases r with
  | ok a => exact .pure trivial
  | error e => exact .throw _

/-- One by one, outputs come to an end that keeps the invariant. -/
theorem outputs {output : α → SessionM Text} {as : List α}
    (h : ∀ a ∈ as, (output a).Preserves invariant) {s : Session} (hs : invariant s) :
    match (SessionM.outputs output as s).2 with
    | .ok _ t | .error _ t => invariant t := by
  induction as generalizing s with
  | nil => exact hs
  | cons a as ih =>
    have hrun := h a List.mem_cons_self s hs
    rw [SessionM.outputs]
    generalize (output a).run s = outcome at hrun ⊢
    cases outcome with
    | ok first t => exact ih (fun b hb => h b (List.mem_cons_of_mem a hb)) hrun.1
    | error e t => exact hrun

end SessionM.Keeps

namespace Environment

theorem Maintains.record_keeps {env : Environment} (h : env.Maintains invariant) {e : Event}
    (he : e.isOfCompiling = false) : (SessionM.record [e]).Preserves invariant :=
  .record fun s hs => h.record s [e] (by simpa using he) hs

/-- In terms of what a rendering may do and how it may fail, nothing is ruled out. -/
theorem Maintains.upholds {r : Rendering} (hr : r.env.Maintains invariant) :
    r.Upholds invariant (fun _ => True) (fun _ => True) (fun _ _ => True) :=
  ⟨hr.record, hr.streams, fun _ _ => trivial,
    fun helper _ i => (helper.handle i).within_true.mono fun _ _ _ _ => trivial,
    fun name => (hr.partialNamed name).ensures⟩

end Environment

/-- A level where nothing is ruled out keeps the invariant. -/
theorem Rendering.IsLevel.keeps {r : Rendering} {room : Nat} {chain : List Label}
    {renderer : Renderer}
    (h : r.IsLevel invariant (fun _ => True) (fun _ => True) (fun _ _ => True) room chain
      renderer) : renderer.Keeps invariant := by
  refine ⟨fun nodes f => (h.nodes nodes f).keeps, fun name f => ?_⟩
  exact (h.partialNamed [] name f fun inside _ => .helper trivial trivial).keeps

/-- **All levels are rendered without breaking the invariant.** -/
theorem Environment.Maintains.renderer {r : Rendering} (hr : r.env.Maintains invariant) (room : Nat)
    (chain : List Label) : (r.renderer room chain).Keeps invariant :=
  (hr.upholds.level room chain).keeps

end Stencil
