import Stencil.Proofs.Engine.Comparison
import Stencil.Proofs.Rendering.Alike
import Stencil.Proofs.Template

/-!
# The helpers that a template can call

A compiled template lists the names of helpers that rendering it may call.  No other helper makes a
difference: engines that bind those names to the same helpers, and the name that takes the place of
missing helpers, render the template alike.

The list is made by one walk over the tree, and rendering decides what to call in another way: a
tag without parameters is looked up as a path first, and a name that is not in the list may turn
out to be no helper at all.  What connects the two is that the compiler knew which names the
registry has.  A bare name that it did not list belongs to no helper on either side
(`Comparison.admitsCall_of_mentions`).  The rest is one comparison of two renderings of the same
data that may call the names on which the registries agree.
-/

set_option autoImplicit false

namespace Stencil

open SessionM (Lockstep)

/-- The template has been compiled when the names of a registry were known, and no others. -/
def Template.CompiledFor (helpers : HelperRegistry) (t : Template) : Prop :=
  ∃ (known : KnownHelpers) (options : CompileOptions) (name source : Text),
    (∀ helper, Table.contains known helper = Table.contains helpers helper) ∧
      (Template.compile known options name source).result = .ok t

/-- Two registries bind some names to the same helpers. -/
def HelperRegistry.AgreeOn (names : List Text) (left right : HelperRegistry) : Prop :=
  ∀ name ∈ names, Table.get? left name = Table.get? right name

/-- A compiler that is told the names of a registry knows these and no others. -/
theorem HelperRegistry.contains_known (r : HelperRegistry) (name : Text) :
    Table.contains r.known name = Table.contains r name := by
  induction r with
  | nil => rfl
  | cons entry rest ih =>
    obtain ⟨n, helper⟩ := entry
    rw [Table.contains, Table.contains] at ih ⊢
    rw [HelperRegistry.known, List.map_cons, Table.get?_cons, Table.get?_cons]
    split
    · rfl
    · exact ih

/-- A template that can call no helper on which two registries differ. -/
structure Template.CallsAgree (left right : HelperRegistry) (t : Template) : Prop where
  /-- The template has been compiled for the names of the registry. -/
  compiled : t.CompiledFor left
  /-- The registries agree on the helpers that it lists. -/
  agree : left.AgreeOn t.helperNames right

/-! ## What the compiler lists -/

section Mentions

variable {left right : HelperRegistry} {known : KnownHelpers}
  {hfallback : Table.get? left HelperRegistry.fallbackName =
    Table.get? right HelperRegistry.fallbackName}

/-- Compares two renderings that may call the helpers on which two registries agree, and find
partials that can call no others. -/
def HelperRegistry.comparison (left right : HelperRegistry)
    (hfallback : Table.get? left HelperRegistry.fallbackName =
      Table.get? right HelperRegistry.fallbackName) : Comparison :=
  .equal
    (fun s t => s = t ∧ ∀ name h, Table.get? s.partials name = some h →
      h.template.CallsAgree left right)
    (fun _ => False) (fun name => Table.get? left name = Table.get? right name) hfallback

/-- A name that neither of two registries has is bound alike. -/
theorem Table.get?_eq_of_not_contains {α : Type} {a b : Table α} {name : Text}
    (ha : Table.contains a name = false) (hb : Table.contains b name = false) :
    Table.get? a name = Table.get? b name := by
  rw [Table.contains, Option.isSome_eq_false_iff, Option.isNone_iff_eq_none] at ha hb
  rw [ha, hb]

/-- **A call whose listed names are bound alike may be made**: a name that is not listed is the
name of no helper. -/
theorem Comparison.admitsCall_of_mentions
    (hknown : ∀ helper, Table.contains known helper = Table.contains left helper)
    (hnames : ∀ helper, Table.contains left helper = Table.contains right helper) {call : Call}
    (hmentions : left.AgreeOn (call.mentions known) right) (isBlock : Bool) :
    (left.comparison right hfallback).AdmitsCall isBlock call := by
  rw [Call.mentions, Call.innerCallees] at hmentions
  refine ⟨fun hsimple => ?_, fun name hname => ?_, fun name hname => ?_⟩
  · show Table.get? left call.head.source = Table.get? right call.head.source
    by_cases hcontains : Table.contains known call.head.source = true
    · refine hmentions _ (List.mem_append_left _ ?_)
      rw [if_pos (by simp [hsimple, hcontains])]
      exact List.mem_singleton_self _
    · have hleft : Table.contains left call.head.source = false := by
        rw [← hknown]
        exact eq_false_of_ne_true hcontains
      exact Table.get?_eq_of_not_contains hleft (hnames _ ▸ hleft)
  · exact hmentions name (List.mem_append_right _ (List.mem_append_left _ hname))
  · exact hmentions name (List.mem_append_right _ (List.mem_append_right _ hname))

/-- A node whose listed names are bound alike may be rendered. -/
theorem Comparison.admits_of_mentions
    (hknown : ∀ helper, Table.contains known helper = Table.contains left helper)
    (hnames : ∀ helper, Table.contains left helper = Table.contains right helper) {n : Node}
    (hmentions : left.AgreeOn (n.helperMentions known) right) :
    (left.comparison right hfallback).Admits n := by
  cases n with
  | text t => trivial
  | comment content => trivial
  | output escaped call position =>
    exact ⟨trivial, admitsCall_of_mentions hknown hnames hmentions false⟩
  | block inverted call body inverse position =>
    exact admitsCall_of_mentions hknown hnames hmentions true
  | partialTag call indent position =>
    rw [Node.helperMentions] at hmentions
    refine ⟨⟨fun _ _ => trivial, fun name hname => ?_, fun e he name hname => ?_,
      fun name hname => ?_⟩, fun _ _ => trivial⟩
    · exact hmentions name (List.mem_append_left _ (List.mem_append_left _ hname))
    · refine hmentions name (List.mem_append_left _ (List.mem_append_right _ ?_))
      rw [Option.mem_def.1 he, Option.toList_some, Expr.calleesOfList]
      exact List.mem_append_left _ hname
    · exact hmentions name (List.mem_append_right _ hname)

/-- A template that can call no helper on which the registries differ may be rendered. -/
theorem Template.CallsAgree.admitsAll
    (hnames : ∀ helper, Table.contains left helper = Table.contains right helper) {t : Template}
    (h : t.CallsAgree left right) :
    (left.comparison right hfallback).AdmitsAll t.nodes := by
  obtain ⟨known, options, name, source, hknown, hcompile⟩ := h.compiled
  intro n hn
  refine Comparison.admits_of_mentions hknown hnames fun helper hhelper => ?_
  exact h.agree helper ((Template.mem_helperNames hcompile).2 ⟨n, hn, hhelper⟩)

end Mentions

/-! ## Engines with different helpers -/

namespace Engine

/-- The engine with other helpers. -/
def withHelpers (e : Engine) (helpers : HelperRegistry) : Engine :=
  { e with env := { e.env with helpers } }

/-- Two renderings by engines without loader that differ in their helpers are related. -/
theorem rendering_related {e : Engine} {left right : HelperRegistry}
    (hfallback : Table.get? left HelperRegistry.fallbackName =
      Table.get? right HelperRegistry.fallbackName)
    (hloader : e.env.loader = none)
    (hnames : ∀ helper, Table.contains left helper = Table.contains right helper) (t : Template) :
    ((e.withHelpers left).env.rendering t).Related (left.comparison right hfallback)
      ((e.withHelpers right).env.rendering t) := by
  refine ⟨fun isBlock name hcalls => ?_, rfl, fun _ _ _ _ _ => trivial, rfl, ?_, fun name _ => ?_,
    fun _ he => he.elim⟩
  · have hsame : Table.get? left name = Table.get? right name := hcalls
    show Option.Rel _ (Table.get? left name) (Table.get? right name)
    rw [hsame]
    cases Table.get? right name with
    | none => exact .none
    | some h => exact .some (h.related_equal isBlock)
  · intro f g hfg p
    obtain rfl := Frame.related_equal_iff.1 hfg
    exact .ofExcept (.refl (fun _ => rfl) _)
  · show Lockstep _ _ _ ((e.withHelpers left).env.partialNamed name)
      ((e.withHelpers right).env.partialNamed name)
    rw [Environment.partialNamed, Environment.partialNamed, SessionM.registeredOr,
      SessionM.registeredOr]
    refine Lockstep.get_bind fun s t halike => ?_
    obtain ⟨hstore, hpartials⟩ := halike.stores
    rw [← hstore]
    cases hget : Table.get? s.store.partials name with
    | some h => exact .pure ⟨rfl, (hpartials name h hget).admitsAll hnames⟩
    | none =>
      simp only [withHelpers, hloader]
      exact .throw _

/-- **No helper outside the listed names makes a difference.**  A template and the registered
partials are compiled when the names of two registries are known, which have the same names.  If
the registries bind the listed names to the same helpers, and also the name that takes the place of
missing ones, then two engines without loader that differ in nothing but these registries render
the template alike, as a whole and node by node. -/
theorem render_of_agreeOn_helperNames (e : Engine) (left right : HelperRegistry) (h : Handle)
    (hloader : e.env.loader = none)
    (hnames : ∀ helper, Table.contains left helper = Table.contains right helper)
    (hcompiled : h.template.CompiledFor left)
    (hagree : left.AgreeOn h.template.helperNames right)
    (hpartials : ∀ name k, Table.get? e.session.store.partials name = some k →
      k.template.CompiledFor left ∧ left.AgreeOn k.template.helperNames right)
    (hfallback : Table.get? left HelperRegistry.fallbackName =
      Table.get? right HelperRegistry.fallbackName) (data : Value) :
    ((e.withHelpers left).render h data).1 = ((e.withHelpers right).render h data).1 ∧
      ((e.withHelpers left).renderNodes h data).1 = ((e.withHelpers right).renderNodes h data).1 ∧
      ((e.withHelpers left).renderNodes h data).2.1 =
        ((e.withHelpers right).renderNodes h data).2.1 := by
  have hrendering := rendering_related hfallback hloader hnames h.template
  have hadmits : (left.comparison right hfallback).AdmitsAll h.template.nodes :=
    Template.CallsAgree.admitsAll hnames ⟨hcompiled, hagree⟩
  have hsession : (e.withHelpers left).session.Alike (left.comparison right hfallback).stores
      (e.withHelpers right).session :=
    ⟨⟨rfl, fun name k hk => ⟨(hpartials name k hk).1, (hpartials name k hk).2⟩⟩, rfl, rfl, rfl⟩
  refine ⟨?_, renderNodes_eq (fun _ => id) hrendering rfl hadmits hsession rfl⟩
  have hlockstep := Environment.render_lockstep (fun _ => id) hrendering rfl rfl hadmits
    (rfl : data = data)
  have hresult := (perform_rel hlockstep hsession).resolve_left fun ⟨_, _, hfalse⟩ => hfalse
  exact hresult.eq And.left

/-- Two registries that bind `u` to different helpers: a template that only calls `h`, itself and by
a partial, is rendered alike. -/
theorem render_of_agreeOn_helperNames_partial :
    let left : HelperRegistry := [(['h'], .constant (.text ['x'])), (['u'], .builtin .log)]
    let right : HelperRegistry := [(['h'], .constant (.text ['x'])), (['u'], .builtin .lookup)]
    Table.get? left ['u'] ≠ Table.get? right ['u'] ∧ ∃ (e : Engine) (h : Handle),
      ((e.withHelpers left).render h .null).1 = .ok "xx-".toList ∧
        ((e.withHelpers left).render h .null).1 = ((e.withHelpers right).render h .null).1 := by
  intro left right
  let options : CompileOptions := { delimiters := ⟨['['], [']'], rfl, rfl⟩ }
  let engine (p : Template) : Engine := ⟨{}, { store := { partials := [(['p'], ⟨1, p⟩)] } }⟩
  have hrun : ((Template.compile left.known options "t" "[h][>p]".toList).result.toOption.bind
      fun t : Template =>
        (Template.compile left.known options "p" "[h 1]-".toList).result.toOption.map
        fun p : Template => (t.helperNames, p.helperNames,
          (((engine p).withHelpers left).render ⟨0, t⟩ .null).1)) =
      some ([['h']], [['h']], .ok "xx-".toList) := by decide +kernel
  obtain ⟨t, ht, hrun⟩ := Option.bind_eq_some_iff.1 hrun
  obtain ⟨p, hp, hrun⟩ := Option.map_eq_some_iff.1 hrun
  obtain ⟨htnames, hrun⟩ := Prod.mk.inj hrun
  obtain ⟨hpnames, hrender⟩ := Prod.mk.inj hrun
  rw [Except.toOption_eq_some] at ht hp
  have hnames : ∀ helper, Table.contains left helper = Table.contains right helper := by
    intro helper
    simp only [left, right, Table.contains, Table.get?_cons]
    split
    · rfl
    · split <;> rfl
  have hagree : left.AgreeOn [['h']] right := by
    intro name hname
    obtain rfl := List.mem_singleton.1 hname
    rfl
  have hpartials : ∀ name k, Table.get? (engine p).session.store.partials name = some k →
      k.template.CompiledFor left ∧ left.AgreeOn k.template.helperNames right := by
    intro name k hk
    obtain ⟨rfl, rfl⟩ : name = ['p'] ∧ k = ⟨1, p⟩ := by simpa [engine] using Table.mem_of_get? hk
    exact ⟨⟨_, options, _, _, left.contains_known, hp⟩, hpnames.symm ▸ hagree⟩
  refine ⟨nofun, engine p, ⟨0, t⟩, hrender, ?_⟩
  exact (render_of_agreeOn_helperNames (engine p) left right ⟨0, t⟩ rfl hnames
    ⟨_, options, _, _, left.contains_known, ht⟩ (htnames.symm ▸ hagree) hpartials rfl .null).1

end Engine

end Stencil
