import Stencil.Proofs.Engine.Comparison
import Stencil.Proofs.Engine.Insertion
import Stencil.Proofs.Engine.Steps
import Stencil.Proofs.Helper.Builtin
import Stencil.Proofs.Template

/-!
# Escaping is complete

When values are escaped for markup, no value of the data can bring a character of markup into the
output (`Engine.freeOfMarkup_of_render`).  Where such characters may still come from is excluded one
by one: the texts of the template, tags that do not escape, safe texts in the data, and a section
named `lookup`, which shows a value of the data as it stands.  All this is asked of the template and
of the partials that it can reach (`Environment.Reaches`).

Values reach the output in many ways, by tags, variables, bindings and the parameters of helpers.
The proof does not go through them: it compares the rendering with itself, where a value stands for
itself if no safe text is inside it, and an output may come out if it is free of markup.  Whatever
is rendered, values only become outputs by a tag that escapes them.
-/

set_option autoImplicit false

namespace Stencil

open SessionM (Lockstep)

/-! ## Data without safe texts -/

namespace Value

mutual

/-- Whether a safe text is anywhere inside a value. -/
def containsSafe : Value → Bool
  | .safe _ => true
  | .list items | .tuple items | .stream _ items => anyContainsSafe items
  | .map entries => anyEntryContainsSafe entries
  | .object attributes => anyAttributeContainsSafe attributes
  | _ => false

/-- Whether a safe text is inside any of some values. -/
def anyContainsSafe : List Value → Bool
  | [] => false
  | v :: vs => v.containsSafe || anyContainsSafe vs

/-- Whether a safe text is inside the key or the value of any of some entries. -/
def anyEntryContainsSafe : List (Value × Value) → Bool
  | [] => false
  | (k, v) :: es => k.containsSafe || v.containsSafe || anyEntryContainsSafe es

/-- Whether a safe text is inside any of some attributes. -/
def anyAttributeContainsSafe : List (Text × Value) → Bool
  | [] => false
  | (_, v) :: as => v.containsSafe || anyAttributeContainsSafe as

end

/-- A value stands for itself if no safe text is inside it. -/
def SameUnsafe (v w : Value) : Prop :=
  v = w ∧ v.containsSafe = false

theorem forall₂_sameUnsafe_iff {vs ws : List Value} :
    List.Forall₂ SameUnsafe vs ws ↔ vs = ws ∧ anyContainsSafe vs = false := by
  induction vs generalizing ws with
  | nil =>
    constructor
    · rintro ⟨⟩
      exact ⟨rfl, rfl⟩
    · rintro ⟨rfl, -⟩
      exact .nil
  | cons v vs ih =>
    constructor
    · rintro (_ | ⟨⟨rfl, hv⟩, hrest⟩)
      obtain ⟨rfl, hvs⟩ := ih.1 hrest
      exact ⟨rfl, by rw [anyContainsSafe, hv, hvs]; rfl⟩
    · rintro ⟨rfl, h⟩
      rw [anyContainsSafe, Bool.or_eq_false_iff] at h
      exact .cons ⟨rfl, h.1⟩ (ih.2 ⟨rfl, h.2⟩)

theorem forall₂_entries_of_not_containsSafe {es : List (Value × Value)}
    (h : anyEntryContainsSafe es = false) :
    List.Forall₂ (fun e f => SameUnsafe e.1 f.1 ∧ SameUnsafe e.2 f.2) es es := by
  induction es with
  | nil => exact .nil
  | cons e es ih =>
    obtain ⟨k, v⟩ := e
    rw [anyEntryContainsSafe, Bool.or_eq_false_iff, Bool.or_eq_false_iff] at h
    obtain ⟨⟨hk, hv⟩, hrest⟩ := h
    exact .cons ⟨⟨rfl, hk⟩, rfl, hv⟩ (ih hrest)

theorem get?_attributes_of_not_containsSafe {attributes : List (Text × Value)}
    (h : anyAttributeContainsSafe attributes = false) (name : Text) :
    Option.Rel SameUnsafe (Table.get? attributes name) (Table.get? attributes name) := by
  induction attributes with
  | nil => exact .none
  | cons entry attributes ih =>
    obtain ⟨n, v⟩ := entry
    rw [anyAttributeContainsSafe, Bool.or_eq_false_iff] at h
    rw [Table.get?_cons]
    split
    · exact .some ⟨rfl, h.1⟩
    · exact ih h.2

/-- What is inside a value without safe texts has none either. -/
theorem isSimulation_sameUnsafe : IsSimulation SameUnsafe := by
  rintro v _ ⟨rfl, h⟩
  cases v with
  | undefined => exact .undefined
  | null => exact .null
  | bool b => exact .bool b
  | int i => exact .int i
  | float x => exact .float x
  | text t => exact .text t
  | safe t => exact .safe t
  | bytes b => exact .bytes b
  | list items =>
    rw [containsSafe] at h
    exact .list (forall₂_sameUnsafe_iff.2 ⟨rfl, h⟩)
  | tuple items =>
    rw [containsSafe] at h
    exact .tuple (forall₂_sameUnsafe_iff.2 ⟨rfl, h⟩)
  | map entries =>
    rw [containsSafe] at h
    exact .map (forall₂_entries_of_not_containsSafe h)
  | object attributes =>
    rw [containsSafe] at h
    exact .object fun name _ => get?_attributes_of_not_containsSafe h name
  | stream serial items =>
    rw [containsSafe] at h
    exact .stream serial (forall₂_sameUnsafe_iff.2 ⟨rfl, h⟩)

end Value

/-! ## Templates without markup of their own -/

/-- A text is free of markup if no character that matters there is in it, ampersands apart. -/
def Text.FreeOfMarkup (t : Text) : Prop :=
  ∀ c ∈ Escaper.markupChars, c ∉ t

instance (t : Text) : Decidable t.FreeOfMarkup :=
  List.decidableBAll (fun c => c ∉ t) Escaper.markupChars

/-- A node keeps markup out if it brings none in itself and shows no value as it stands. -/
def Node.KeepsMarkupOut : Node → Prop
  | .text t => t.FreeOfMarkup
  | .output escaped _ _ => escaped = true
  | .block _ call _ _ _ => call.head.source ≠ Builtin.lookup.name
  | .comment _ | .partialTag _ _ _ => True

instance (n : Node) : Decidable n.KeepsMarkupOut :=
  match n with
  | .text t => inferInstanceAs (Decidable t.FreeOfMarkup)
  | .output escaped _ _ => inferInstanceAs (Decidable (escaped = true))
  | .block _ call _ _ _ => inferInstanceAs (Decidable (call.head.source ≠ Builtin.lookup.name))
  | .comment _ | .partialTag _ _ _ => inferInstanceAs (Decidable True)

/-- A template keeps markup out if it has been compiled and all its nodes do. -/
structure Template.KeepsMarkupOut (t : Template) : Prop where
  /-- It has been compiled. -/
  compiled : ∃ known options name source,
    (Template.compile known options name source).result = .ok t
  /-- Its nodes keep markup out. -/
  nodes : ∀ n ∈ Node.preorder t.nodes, n.KeepsMarkupOut

/-- The names that some nodes may ask for when some partials are registered: those that their
partial tags may insert, and those that the templates inserted there may insert. -/
inductive Environment.Reaches (env : Environment) (partials : Table Handle) (nodes : List Node) :
    Text → Prop
  /-- A partial tag among the nodes. -/
  | tag {call : PartialCall} {indent : Text} {position : Position} {name : Text}
      (htag : .partialTag call indent position ∈ Node.preorder nodes)
      (hname : call.MayInsert name) : Reaches env partials nodes name
  /-- A partial tag in a template that is reached. -/
  | inside {via : Text} {t : Template} {call : PartialCall} {indent : Text} {position : Position}
      {name : Text} (hvia : Reaches env partials nodes via)
      (ht : env.insertion? partials via = some t)
      (htag : .partialTag call indent position ∈ Node.preorder t.nodes)
      (hname : call.MayInsert name) : Reaches env partials nodes name

namespace Text.FreeOfMarkup

theorem nil : FreeOfMarkup [] :=
  fun _ _ => List.not_mem_nil

theorem append {t u : Text} (ht : t.FreeOfMarkup) (hu : u.FreeOfMarkup) :
    FreeOfMarkup (t ++ u) := by
  intro c hc hmem
  rcases List.mem_append.1 hmem with hmem | hmem
  · exact ht c hc hmem
  · exact hu c hc hmem

theorem indentLines {indent t : Text} (hindent : ∀ c ∈ indent, isIndentChar c = true)
    (ht : t.FreeOfMarkup) : FreeOfMarkup (Text.indentLines indent t) := by
  intro c hc hmem
  obtain ⟨indented, hindented, hc'⟩ := List.mem_flatten.1 hmem
  obtain ⟨line, hline, rfl⟩ := List.mem_map.1 hindented
  rcases List.mem_append.1 hc' with hc' | hc'
  · have hmarkup : ∀ d ∈ Escaper.markupChars, isIndentChar d = false := by
      simp [Escaper.markupChars, isIndentChar]
    exact absurd (hindent c hc') (by rw [hmarkup c hc]; decide)
  · refine ht c hc ?_
    rw [← Text.flatten_lines t]
    exact List.mem_flatten_of_mem hline hc'

end Text.FreeOfMarkup

/-! ## The comparison of a rendering with itself -/

section Comparison

variable (env : Environment) (partials : Table Handle) (nodes : List Node)

/-- Compares a rendering with itself: no safe text may be among the values, and no markup in the
outputs. -/
def Environment.markupComparison : Comparison where
  stores s t := Store.Alike Eq env.helpers.known s t ∧ env.Inserts partials s
  excused _ := False
  values := Value.SameUnsafe
  outputs := Text.FreeOfMarkup
  calls isBlock name := isBlock = true → name ≠ Builtin.lookup.name
  inserts := env.Reaches partials nodes
  shows escaped := escaped = true
  similar := Value.isSimulation_sameUnsafe
  literal l := by
    cases l with
    | _ => exact ⟨rfl, rfl⟩
  noEntries := ⟨rfl, rfl⟩
  stream serial vs ws h := by
    obtain ⟨rfl, hvs⟩ := Value.forall₂_sameUnsafe_iff.1 h
    exact ⟨rfl, by rw [Value.containsSafe, hvs]⟩
  nil := .nil
  append := .append
  fallback _ _ := by decide

variable {env partials nodes}

/-- A template that keeps markup out may be rendered, if its partial tags insert what may be
inserted. -/
theorem Template.KeepsMarkupOut.admitsAll {t : Template} (h : t.KeepsMarkupOut)
    (hinserts : ∀ call indent position, .partialTag call indent position ∈ Node.preorder t.nodes →
      ∀ name, call.MayInsert name → env.Reaches partials nodes name) :
    (env.markupComparison partials nodes).AdmitsAll t.nodes := by
  intro n hn
  have hinline : ∀ name, (env.markupComparison partials nodes).calls false name :=
    fun name hblock => absurd hblock (by decide)
  have hnode := h.nodes n hn
  cases n with
  | text content => exact hnode
  | comment content => trivial
  | output escaped call position =>
    exact ⟨hnode, fun _ => hinline _, fun name _ => hinline name, fun name _ => hinline name⟩
  | block inverted call body inverse position =>
    exact ⟨fun _ _ => hnode, fun name _ => hinline name, fun name _ => hinline name⟩
  | partialTag call indent position =>
    obtain ⟨known, options, name, source, hcompile⟩ := h.compiled
    have hindent := Template.isIndentChar_of_compile hcompile hn
    exact ⟨⟨hinserts call indent position hn, fun name _ => hinline name,
      fun _ _ name _ => hinline name, fun name _ => hinline name⟩,
      fun t ht => ht.indentLines hindent⟩

theorem Environment.rendering_related_self (hhelpers : env.helpers = .builtins)
    (hescape : env.escape = Escaper.html)
    (hpartials : ∀ name t, env.Reaches partials nodes name →
      env.insertion? partials name = some t → t.KeepsMarkupOut) (t : Template) :
    (env.rendering t).Related (env.markupComparison partials nodes) (env.rendering t) := by
  refine ⟨fun isBlock name hcalls => ?_, rfl, ?_, rfl, fun hfg p => ?_, fun name hname => ?_,
    fun _ he => he.elim⟩
  · show Option.Rel _ (Table.get? env.helpers name) (Table.get? env.helpers name)
    rw [hhelpers]
    refine HelperRegistry.builtins_related fun hblock hlookup => ?_
    exact absurd hlookup (hcalls hblock)
  · rintro escaped rfl v _ ⟨rfl, hv⟩ c hc
    show c ∉ Escaper.value env.escape v
    rw [hescape]
    cases v with
    | safe t => exact absurd hv (by simp [Value.containsSafe])
    | _ => exact Escaper.not_mem_html hc
  · exact .ofExcept (hfg.resolve p _)
  · have hself : env.Alike Eq (fun _ => False) env := Environment.alike_refl (fun _ => rfl) env
    have hfound := (hself.partialNamed_lockstep name).keeping
      (env.partialNamed_keeps partials name)
    refine hfound.mono fun h k hh => ?_
    obtain ⟨htemplate, hinsertion⟩ := hh
    refine ⟨congrArg Template.nodes htemplate, ?_⟩
    refine (hpartials name h.template hname hinsertion).admitsAll ?_
    exact fun call indent position htag other => .inside hname hinsertion htag

end Comparison

namespace Engine

/-- **Escaping is complete.**  An engine with the built-in helpers renders a template with escaping
for markup.  If the template and all partials that it can reach keep markup out, and there is no
safe text in the data, then no character of markup is in the output, whatever the options of the
template are. -/
theorem freeOfMarkup_of_render {e : Engine} (hreachable : e.IsReachable)
    (hhelpers : e.env.helpers = .builtins) (hescape : e.env.escape = Escaper.html) {h : Handle}
    (htemplate : h.template.KeepsMarkupOut)
    (hpartials : ∀ name t, e.env.Reaches e.session.store.partials h.template.nodes name →
      e.env.insertion? e.session.store.partials name = some t → t.KeepsMarkupOut)
    {data : Value} (hdata : data.containsSafe = false) {output : Text}
    (hrender : (e.render h data).1 = .ok output) :
    output.FreeOfMarkup := by
  have hrendering := Environment.rendering_related_self hhelpers hescape hpartials h.template
  have hadmits : (e.env.markupComparison e.session.store.partials h.template.nodes).AdmitsAll
      h.template.nodes :=
    htemplate.admitsAll fun call indent position htag name => .tag htag
  have hlockstep := Environment.render_lockstep (fun _ => id) hrendering rfl rfl hadmits
    (⟨rfl, hdata⟩ : data.SameUnsafe data)
  have hself : e.session.Alike (Store.Alike Eq e.env.helpers.known) e.session :=
    Session.alike_self (fun _ => rfl) hreachable.coherent
  have hsession : e.session.Alike
      (e.env.markupComparison e.session.store.partials h.template.nodes).stores e.session :=
    ⟨⟨hself.stores, hreachable.coherent, fun _ => rfl⟩, rfl, rfl, rfl⟩
  have hresult : Except.Rel
      (e.env.markupComparison e.session.store.partials h.template.nodes).Output
      (e.render h data).1 (e.render h data).1 :=
    (perform_rel hlockstep hsession).resolve_left fun ⟨_, _, hfalse⟩ => hfalse
  rw [hrender] at hresult
  cases hresult with
  | ok houtput => exact houtput.2

/-- Values that are shown by a tag, for every item of a list and by a partial that is loaded. -/
theorem freeOfMarkup_of_render_items :
    let config : EngineConfig := { EngineConfig.standard with delimiters := (['['], [']']) }
    let loader : Loader := .map [(['p'], "[x]".toList)]
    let e := (((create config (some loader) none { directory := .parse [] }).withStreams 0).follow
      [] []).2
    let data : Value := .map [(.text ['a'], .text ['<']),
      (.text ['b'], .list [.text ['"'], .text ['=']]), (.text ['x'], .text ['`'])]
    ∃ h output, (e.render h data).1 = .ok output ∧
      output = "&lt;-&quot;-&#x3D; &#x60;".toList ∧ output.FreeOfMarkup := by
  intro config loader e data
  let options : CompileOptions := { delimiters := ⟨['['], [']'], rfl, rfl⟩ }
  have hrun : (Template.compile e.env.helpers.known options "t"
        "[a][#each b]-[this][/each] [>p]".toList).result.toOption.map
      (fun t : Template =>
        ((e.render ⟨0, t⟩ data).1, decide (∀ n ∈ Node.preorder t.nodes, n.KeepsMarkupOut))) =
      some (.ok "&lt;-&quot;-&#x3D; &#x60;".toList, true) := by decide +kernel
  have hpartial : (Template.compile e.env.helpers.known options "p"
        "[x]".toList).result.toOption.map
      (fun t : Template => decide (∀ n ∈ Node.preorder t.nodes, n.KeepsMarkupOut)) = some true := by
    decide +kernel
  obtain ⟨t, ht, hrun⟩ := Option.map_eq_some_iff.1 hrun
  obtain ⟨hrender, hnodes⟩ := Prod.mk.inj hrun
  rw [Except.toOption_eq_some] at ht
  refine ⟨⟨0, t⟩, _, hrender, rfl, ?_⟩
  refine freeOfMarkup_of_render ⟨config, some loader, none, { directory := .parse [] }, 0, [], rfl⟩
    rfl rfl ⟨⟨_, options, _, _, ht⟩, of_decide_eq_true hnodes⟩ ?_ (by decide) hrender
  intro name u _ hu
  rcases Environment.insertion?_eq_some hu with ⟨_, hget, -⟩ |
    ⟨loader', source, options', hloader, hsource, hoptions, hcompile⟩
  · exact absurd hget (by simp [follow, create, withStreams])
  · obtain rfl : loader = loader' := Option.some.inj hloader
    obtain rfl : options = options' :=
      Except.ok.inj ((rfl : _ = Except.ok options).symm.trans hoptions)
    obtain ⟨rfl, rfl⟩ : name = ['p'] ∧ source = "[x]".toList := by
      have hmem := Table.mem_of_get? hsource
      simpa using hmem
    have hu' : (Template.compile e.env.helpers.known options "p" "[x]".toList).result.toOption =
        some u := Except.toOption_eq_some.2 hcompile
    rw [hu'] at hpartial
    exact ⟨⟨_, options, _, _, hcompile⟩, of_decide_eq_true (Option.some.inj hpartial)⟩

end Engine

end Stencil
