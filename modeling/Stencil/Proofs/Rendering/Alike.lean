import Stencil.Proofs.Rendering.Lockstep

/-!
# Two renderings of the same data

When two renderings are given the same data, values stand for each other if they are equal, and
nothing has to be known of the helpers but that they are the same (`Comparison.equal`): a helper
that is asked the same goes on in the same way.

Two renderings are *alike* if they agree in the helpers, the escaper and the way helpers are given
their parameters, and resolve paths and find partials in lockstep (`Rendering.Alike`).  Then all
nodes are rendered in lockstep (`Rendering.renderer_alike`).
-/

set_option autoImplicit false

namespace Stencil

open SessionM (Lockstep)

variable {stores : Store → Store → Prop} {excused : Failure → Prop}

/-! ## Comparing for equality -/

/-- Compares two renderings of the same data, which may call the helpers of some names. -/
def Comparison.equal (stores : Store → Store → Prop) (excused : Failure → Prop)
    (calls : Text → Prop) (hfallback : calls HelperRegistry.fallbackName) : Comparison where
  stores := stores
  excused := excused
  values := Eq
  outputs _ := True
  calls _ := calls
  inserts _ := True
  shows _ := True
  similar := by
    rintro v _ rfl
    exact .refl (fun _ => rfl) v
  literal _ := rfl
  noEntries := rfl
  stream := by
    intro serial vs ws h
    rw [List.forall₂_eq_eq_eq] at h
    rw [h]
  nil := trivial
  append _ _ := trivial
  fallback _ := hfallback

section Equal

variable {calls : Text → Prop} {hfallback : calls HelperRegistry.fallbackName}

theorem option_rel_eq_iff {α : Type} {x y : Option α} : Option.Rel Eq x y ↔ x = y := by
  constructor
  · intro h
    cases h with
    | none => rfl
    | some h => rw [h]
  · rintro rfl
    cases x with
    | none => exact .none
    | some a => exact .some rfl

theorem Scope.related_equal_iff {s t : Scope} :
    s.Related (.equal stores excused calls hfallback) t ↔ s = t := by
  constructor
  · rintro ⟨hvalue, hlocals, hbindings⟩
    obtain ⟨value, locals, bindings⟩ := s
    obtain ⟨value', locals', bindings'⟩ := t
    obtain rfl : value = value' := hvalue
    obtain rfl := Table.related_eq_iff.1 hlocals
    obtain rfl := Table.related_eq_iff.1 hbindings
    rfl
  · rintro rfl
    exact ⟨rfl, Table.related_eq_iff.2 rfl, Table.related_eq_iff.2 rfl⟩

theorem Frame.related_equal_iff {f g : Frame} :
    f.Related (.equal stores excused calls hfallback) g ↔ f = g := by
  have hscopes : (Scope.Related (.equal stores excused calls hfallback)) = Eq := by
    funext s t
    exact propext Scope.related_equal_iff
  constructor
  · rintro ⟨hcurrent, houter⟩
    obtain ⟨current, outer⟩ := f
    obtain ⟨current', outer'⟩ := g
    rw [hscopes] at hcurrent houter
    rw [List.forall₂_eq_eq_eq] at houter
    obtain rfl : current = current' := hcurrent
    obtain rfl : outer = outer' := houter
    rfl
  · rintro rfl
    exact ⟨Scope.related_equal_iff.2 rfl,
      List.forall₂_same.2 fun s _ => Scope.related_equal_iff.2 rfl⟩

theorem Entering.related_equal (e : Entering) :
    e.Related (.equal stores excused calls hfallback) e :=
  ⟨option_rel_eq_iff.2 rfl, Table.related_eq_iff.2 rfl, Table.related_eq_iff.2 rfl⟩

/-- A script is related to itself. -/
theorem Script.related_equal {α : Type} {answers : α → α → Prop} (hself : ∀ a, answers a a)
    (s : Script α) : s.Related (.equal stores excused calls hfallback) answers s := by
  induction s with
  | done answer => exact .done (hself answer)
  | stop why => exact .stop why
  | render branch entering next ih =>
    exact .render branch entering.related_equal fun t _ => ih t
  | partialNamed name context next ih =>
    exact .partialNamed trivial (option_rel_eq_iff.2 rfl) fun t _ => ih t
  | resolve path next ih =>
    refine .resolve path ?_
    rintro v _ rfl
    exact ih v
  | readVariable name next ih =>
    refine .readVariable name ?_
    rintro v _ rfl
    exact ih v
  | newStream items next ih =>
    refine .newStream (List.forall₂_same.2 fun _ _ => rfl) ?_
    rintro v _ rfl
    exact ih v
  | read serial items count next ih =>
    refine .read serial (List.forall₂_same.2 fun _ _ => rfl) count fun vs ws h => ?_
    obtain rfl : vs = ws := List.forall₂_eq_eq_eq ▸ h
    exact ih vs
  | write output next ih => exact .write trivial ih
  | written next ih => exact .written fun t _ => ih t
  | log level message next ih => exact .log level message ih

theorem Invocation.eq_of_related {i j : Invocation}
    (h : i.Related (.equal stores excused calls hfallback) j) : i = j := by
  obtain ⟨hname, hcontext, hscope, hparams, hnamed, hblock, hinverse, hstring⟩ := h
  obtain ⟨name, context, scope, params, named, isBlock, hasInverse, stringParams⟩ := i
  obtain ⟨name', context', scope', params', named', isBlock', hasInverse', stringParams'⟩ := j
  obtain rfl := Table.related_eq_iff.1 hnamed
  obtain rfl : params = params' := List.forall₂_eq_eq_eq ▸ hparams
  obtain rfl : context = context' := hcontext
  obtain rfl : scope = scope' := hscope
  cases hname
  cases hblock
  cases hinverse
  cases hstring
  rfl

/-- **A helper is related to itself**: whatever it asks for, it goes on in the same way. -/
theorem Helper.related_equal (isBlock : Bool) (h : Helper) :
    h.Related (.equal stores excused calls hfallback) isBlock h := by
  intro i j hij _
  obtain rfl := Invocation.eq_of_related hij
  exact Script.related_equal (fun _ => ⟨rfl, fun _ => trivial⟩) _

end Equal

/-! ## Renderings that are alike -/

/-- Two renderings are alike if they differ in nothing but how they resolve paths and find partials,
and do that in lockstep. -/
structure Rendering.Alike (stores : Store → Store → Prop) (excused : Failure → Prop)
    (q r : Rendering) : Prop where
  /-- The same helpers can be called. -/
  helpers : q.env.helpers = r.env.helpers
  /-- Values are escaped in the same way. -/
  escape : q.env.escape = r.env.escape
  /-- Helpers are given their parameters in the same way. -/
  stringParams : q.stringParams = r.stringParams
  /-- Paths are resolved in lockstep. -/
  resolve : ∀ f p, Lockstep stores excused Eq (q.resolve f p) (r.resolve f p)
  /-- Partials are found in lockstep. -/
  partialNamed : ∀ name, Lockstep stores excused
    (fun h h' => h.template.nodes = h'.template.nodes) (q.env.partialNamed name)
    (r.env.partialNamed name)
  /-- Helpers pass on the failures that are excused. -/
  passed : ∀ e, excused e → e.IsPassedOn

/-- Partials are rendered in lockstep. -/
def PartialRenderer.Alike (stores : Store → Store → Prop) (excused : Failure → Prop)
    (a b : PartialRenderer) : Prop :=
  ∀ name f, Lockstep stores excused Eq (a name f) (b name f)

/-- Nodes and partials are rendered in lockstep. -/
structure Renderer.Alike (stores : Store → Store → Prop) (excused : Failure → Prop)
    (a b : Renderer) : Prop where
  /-- Nodes are. -/
  nodes : ∀ nodes f, Lockstep stores excused Eq (a.nodes nodes f) (b.nodes nodes f)
  /-- Partials are. -/
  partialNamed : PartialRenderer.Alike stores excused a.partialNamed b.partialNamed

namespace Rendering

variable {q r : Rendering}

/-- If every name may be called, every node may be rendered. -/
theorem admits_equal_true {hfallback : True} (n : Node) :
    (Comparison.equal stores excused (fun _ => True) hfallback).Admits n :=
  Comparison.admits_of_forall (fun _ => trivial) (fun _ _ => trivial) (fun _ => trivial)
    (fun _ => trivial) n

theorem Alike.related (hr : q.Alike stores excused r) :
    q.Related (.equal stores excused (fun _ => True) trivial) r := by
  refine ⟨fun isBlock name _ => ?_, hr.escape, fun _ _ _ _ _ => trivial, hr.stringParams, ?_, ?_,
    hr.passed⟩
  · rw [hr.helpers]
    cases Table.get? r.env.helpers name with
    | none => exact .none
    | some h => exact .some (h.related_equal isBlock)
  · intro f g hfg p
    obtain rfl := Frame.related_equal_iff.1 hfg
    exact hr.resolve f p
  · intro name _
    exact (hr.partialNamed name).mono fun h k hnodes => ⟨hnodes, fun n _ => admits_equal_true n⟩

/-- **All levels are rendered in lockstep** by renderings that are alike. -/
theorem renderer_alike (hr : q.Alike stores excused r)
    (hexhausted : ∀ reason, ¬ excused (.exhausted reason)) {room room' : Nat}
    {chain chain' : List Label} (hroom : RoomAlike excused q r room room' chain chain') :
    (q.renderer room chain).Alike stores excused (r.renderer room' chain') := by
  have h := renderer_related hr.related hexhausted hroom
  refine ⟨fun nodes f => ?_, fun name f => ?_⟩
  · have hnodes := h.nodes nodes (fun n _ => admits_equal_true n) f f
    exact (hnodes (Frame.related_equal_iff.2 rfl)).mono fun _ _ ht => ht.1
  · have hpartial := h.partialNamed name trivial f f
    exact (hpartial (Frame.related_equal_iff.2 rfl)).mono fun _ _ ht => ht.1

end Rendering

end Stencil
