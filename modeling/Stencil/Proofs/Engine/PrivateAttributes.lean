import Stencil.Proofs.Engine.Comparison
import Stencil.Proofs.Engine.Steps
import Stencil.Proofs.Helper.Builtin

/-!
# Private attributes cannot be reached

An attribute whose name starts with an underscore is private.  What an engine with the built-in
helpers renders does not depend on such attributes: if two data are the same without them, they are
rendered alike (`Engine.render_of_withoutPrivate_eq`).

Data may hold objects at any depth, also in keys and in private attributes themselves, so
`Value.withoutPrivate` goes through the whole value.  One step of a template sees no difference
between values that are the same without private attributes, and what it goes on with are such
values again (`Value.isSimulation_samePublic`).  Nothing else has to be shown: paths, helpers and
nodes are compared for any such relation.
-/

set_option autoImplicit false

namespace Stencil

/-! ## Leaving out private attributes -/

namespace Value

mutual

/-- The value without the private attributes of the objects in it. -/
def withoutPrivate : Value → Value
  | .list items => .list (itemsWithoutPrivate items)
  | .tuple items => .tuple (itemsWithoutPrivate items)
  | .map entries => .map (entriesWithoutPrivate entries)
  | .object attributes => .object (publicAttributes attributes)
  | .stream serial items => .stream serial (itemsWithoutPrivate items)
  | v => v

/-- Some values without the private attributes in them. -/
def itemsWithoutPrivate : List Value → List Value
  | [] => []
  | v :: vs => v.withoutPrivate :: itemsWithoutPrivate vs

/-- Some entries without the private attributes in their keys and values. -/
def entriesWithoutPrivate : List (Value × Value) → List (Value × Value)
  | [] => []
  | (k, v) :: es => (k.withoutPrivate, v.withoutPrivate) :: entriesWithoutPrivate es

/-- The attributes that are not private, without the private attributes in their values. -/
def publicAttributes : List (Text × Value) → List (Text × Value)
  | [] => []
  | (name, v) :: as =>
    if isPrivate name then publicAttributes as
    else (name, v.withoutPrivate) :: publicAttributes as

end

/-- Two values are the same in public if they are without private attributes. -/
def SamePublic (v w : Value) : Prop :=
  v.withoutPrivate = w.withoutPrivate

theorem forall₂_samePublic_iff {vs ws : List Value} :
    List.Forall₂ SamePublic vs ws ↔ itemsWithoutPrivate vs = itemsWithoutPrivate ws := by
  induction vs generalizing ws with
  | nil =>
    cases ws with
    | nil => exact ⟨fun _ => rfl, fun _ => .nil⟩
    | cons w ws => exact ⟨nofun, fun h => absurd h (by simp [itemsWithoutPrivate])⟩
  | cons v vs ih =>
    cases ws with
    | nil => exact ⟨nofun, fun h => absurd h (by simp [itemsWithoutPrivate])⟩
    | cons w ws =>
      rw [List.forall₂_cons, ih, itemsWithoutPrivate, itemsWithoutPrivate, List.cons.injEq]
      rfl

theorem forall₂_entries_of_withoutPrivate_eq {es fs : List (Value × Value)}
    (h : entriesWithoutPrivate es = entriesWithoutPrivate fs) :
    List.Forall₂ (fun e f => SamePublic e.1 f.1 ∧ SamePublic e.2 f.2) es fs := by
  induction es generalizing fs with
  | nil =>
    cases fs with
    | nil => exact .nil
    | cons f fs => exact absurd h (by simp [entriesWithoutPrivate])
  | cons e es ih =>
    cases fs with
    | nil => exact absurd h (by simp [entriesWithoutPrivate])
    | cons f fs =>
      rw [entriesWithoutPrivate, entriesWithoutPrivate] at h
      obtain ⟨hentry, hrest⟩ := List.cons.inj h
      obtain ⟨hkey, hvalue⟩ := Prod.mk.inj hentry
      exact .cons ⟨hkey, hvalue⟩ (ih hrest)

/-- What a public name is bound to among the public attributes. -/
theorem get?_publicAttributes {name : Text} (hname : isPrivate name = false)
    (attributes : List (Text × Value)) :
    Table.get? (publicAttributes attributes) name =
      (Table.get? attributes name).map withoutPrivate := by
  induction attributes with
  | nil => rfl
  | cons entry attributes ih =>
    obtain ⟨first, v⟩ := entry
    rw [publicAttributes, Table.get?_cons]
    by_cases hfirst : name = first
    · rw [if_pos hfirst, ← hfirst, hname, if_neg (by decide), Table.get?_cons, if_pos rfl]
      rfl
    · rw [if_neg hfirst, ← ih]
      split
      · rfl
      · rw [Table.get?_cons, if_neg hfirst]

theorem get?_rel_of_publicAttributes_eq {as bs : List (Text × Value)}
    (h : publicAttributes as = publicAttributes bs) {name : Text}
    (hname : isPrivate name = false) :
    Option.Rel SamePublic (Table.get? as name) (Table.get? bs name) := by
  have hget :
      (Table.get? as name).map withoutPrivate = (Table.get? bs name).map withoutPrivate := by
    rw [← get?_publicAttributes hname, ← get?_publicAttributes hname, h]
  generalize Table.get? as name = x at hget ⊢
  generalize Table.get? bs name = y at hget ⊢
  cases x with
  | none =>
    cases y with
    | none => exact .none
    | some w => exact absurd hget (by simp)
  | some v =>
    cases y with
    | none => exact absurd hget (by simp)
    | some w => exact .some (Option.some.inj hget)

/-- **A template sees no difference** between values that are the same in public, and what is inside
them is the same in public again. -/
theorem isSimulation_samePublic : IsSimulation SamePublic := by
  intro v w h
  rw [SamePublic] at h
  cases v with
  | undefined | null | bool b | int i | float x | text t | safe t | bytes b =>
    cases w <;> simp only [withoutPrivate] at h <;> cases h
    constructor
  | list items =>
    cases w with
    | list items' => exact .list (forall₂_samePublic_iff.2 (list.inj h))
    | _ => exact absurd h (by simp [withoutPrivate])
  | tuple items =>
    cases w with
    | tuple items' => exact .tuple (forall₂_samePublic_iff.2 (tuple.inj h))
    | _ => exact absurd h (by simp [withoutPrivate])
  | map entries =>
    cases w with
    | map entries' => exact .map (forall₂_entries_of_withoutPrivate_eq (map.inj h))
    | _ => exact absurd h (by simp [withoutPrivate])
  | object attributes =>
    cases w with
    | object attributes' =>
      exact .object fun name => get?_rel_of_publicAttributes_eq (object.inj h)
    | _ => exact absurd h (by simp [withoutPrivate])
  | stream serial items =>
    cases w with
    | stream serial' items' =>
      obtain ⟨rfl, hitems⟩ := stream.inj h
      exact .stream serial (forall₂_samePublic_iff.2 hitems)
    | _ => exact absurd h (by simp [withoutPrivate])

end Value

/-! ## Rendering data that are the same in public -/

section Comparison

variable (env : Environment)

/-- Compares two renderings of data that are the same in public. -/
def Environment.publicComparison : Comparison where
  stores := Store.Alike Eq env.helpers.known
  excused _ := False
  values := Value.SamePublic
  outputs _ := True
  calls _ _ := True
  inserts _ := True
  shows _ := True
  similar := Value.isSimulation_samePublic
  literal _ := rfl
  noEntries := rfl
  stream serial _ _ h := congrArg (Value.stream serial) (Value.forall₂_samePublic_iff.1 h)
  nil := trivial
  append _ _ := trivial
  fallback _ := trivial

variable {env}

/-- Every node may be rendered. -/
theorem Environment.admits_publicComparison (n : Node) : env.publicComparison.Admits n :=
  Comparison.admits_of_forall (fun _ => trivial) (fun _ _ => trivial) (fun _ => trivial)
    (fun _ => trivial) n

/-- The built-in helpers do not reach private attributes, and neither do paths. -/
theorem Environment.rendering_publicComparison (hhelpers : env.helpers = .builtins) (t : Template) :
    (env.rendering t).Related env.publicComparison (env.rendering t) := by
  refine ⟨fun isBlock name _ => ?_, rfl, fun _ _ _ _ _ => trivial, rfl, fun hfg p => ?_,
    fun name _ => ?_, fun _ he => he.elim⟩
  · show Option.Rel _ (Table.get? env.helpers name) (Table.get? env.helpers name)
    rw [hhelpers]
    exact HelperRegistry.builtins_related fun _ _ _ _ _ => trivial
  · exact .ofExcept (hfg.resolve p _)
  · have hself : env.Alike Eq (fun _ => False) env := Environment.alike_refl (fun _ => rfl) env
    refine (hself.partialNamed_lockstep name).mono fun h k htemplate => ?_
    exact ⟨congrArg Template.nodes htemplate, fun n _ => admits_publicComparison n⟩

end Comparison

namespace Engine

/-- **Private attributes cannot be reached.**  An engine with the built-in helpers renders a
template alike for two data that are the same without the private attributes of the objects in them,
as a whole and node by node, whatever the options of the template and the escaper, the depth and the
partials of the engine are. -/
theorem render_of_withoutPrivate_eq {e : Engine} (hreachable : e.IsReachable)
    (hhelpers : e.env.helpers = .builtins) (h : Handle) {data data' : Value}
    (hdata : data.withoutPrivate = data'.withoutPrivate) :
    (e.render h data).1 = (e.render h data').1 ∧
      (e.renderNodes h data).1 = (e.renderNodes h data').1 ∧
      (e.renderNodes h data).2.1 = (e.renderNodes h data').2.1 := by
  have hrendering := Environment.rendering_publicComparison hhelpers h.template
  have hadmits : e.env.publicComparison.AdmitsAll h.template.nodes :=
    fun n _ => Environment.admits_publicComparison n
  have hsession : e.session.Alike e.env.publicComparison.stores e.session :=
    Session.alike_self (fun _ => rfl) hreachable.coherent
  refine ⟨?_, renderNodes_eq (fun _ => id) hrendering rfl hadmits hsession hdata⟩
  have hlockstep := Environment.render_lockstep (fun _ => id) hrendering rfl rfl hadmits hdata
  have hresult := (perform_rel hlockstep hsession).resolve_left fun ⟨_, _, hfalse⟩ => hfalse
  exact hresult.eq And.left

/-- An object in a list, whose private attribute is asked for by a name, in brackets, by `lookup`
and in a partial: it may hold a text or be missing. -/
theorem render_of_withoutPrivate_eq_items :
    let config : EngineConfig := { EngineConfig.standard with delimiters := (['<'], [';']) }
    let loader : Loader := .map [(['p'], "<_k;<n;".toList)]
    let e := (((create config (some loader) none { directory := .parse [] }).withStreams 0).follow
      [] []).2
    let data (hidden : List (Text × Value)) : Value :=
      .map [(.text ['a'], .list [.object (hidden ++ [(['n'], .int 1)])])]
    let shown := data [("_k".toList, .text ['x'])]
    ∃ h : Handle, shown.withoutPrivate = (data []).withoutPrivate ∧
      (e.render h shown).1 = .ok "-1.".toList ∧
      (e.render h shown).1 = (e.render h (data [])).1 := by
  intro config loader e data shown
  let options : CompileOptions := { delimiters := ⟨['<'], [';'], rfl, rfl⟩ }
  have hrun : (Template.compile e.env.helpers.known options "t"
        "<#each a;<_k;<this.[_k];<lookup this '_k';-<>p;.</each;".toList).result.toOption.map
      (fun t : Template => (e.render ⟨0, t⟩ shown).1) = some (.ok "-1.".toList) := by
    decide +kernel
  obtain ⟨t, -, hrender⟩ := Option.map_eq_some_iff.1 hrun
  have hsame : shown.withoutPrivate = (data []).withoutPrivate := rfl
  refine ⟨⟨0, t⟩, hsame, hrender, ?_⟩
  exact (render_of_withoutPrivate_eq ⟨config, some loader, none, { directory := .parse [] }, 0, [],
    rfl⟩ rfl ⟨0, t⟩ hsame).1

end Engine

end Stencil
