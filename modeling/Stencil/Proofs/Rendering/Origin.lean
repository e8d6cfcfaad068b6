import Stencil.Proofs.Engine.LoadingError
import Stencil.Proofs.Rendering.Activity

/-!
# Where the failures of helpers come from

A rendering reports that a helper has failed only if this is what has happened: among what the
rendering comprises is a script that stops, and the report is what becomes of the reason
(`Rendering.accounts_nodes`).  Nothing else makes such a report, because the paths that are looked
up, the helpers and partials that are looked for and the guards around the levels of nesting have
errors of their own.

The proof follows the renderer from the inside to the outside.  Scripts and expressions are
accounted for by induction on themselves, nodes one after another, and what is inside the next level
by induction on the room that is left.
-/

set_option autoImplicit false

namespace Stencil

open SessionM (failsFrom_bind failsFrom_ofExcept not_failsFrom_of_ok not_failsFrom_pure)

/-- Whether an error reports that a helper has failed. -/
def TemplateError.isHelperFailed : TemplateError → Bool
  | .helperFailed _ _ _ _ => true
  | _ => false

/-- What begins at a moment comprises a script that stops with this error. -/
def Moment.Raises (r : Rendering) (m : Moment) (error : TemplateError) : Prop :=
  ∃ m' site why, r.Comprises m m' ∧ m'.activity.Stops site why ∧
    why.toFailure site.name site.position = .template error

namespace Rendering

variable {r : Rendering}

/-- Whenever an activity reports that a helper has failed, a script in it stops with this error. -/
def Accounts (r : Rendering) (a : Activity) : Prop :=
  ∀ s error, error.isHelperFailed = true → (⟨a, s⟩ : Moment).Fails r (.template error) →
    (⟨a, s⟩ : Moment).Raises r error

/-- What is involved raises its errors on behalf of what involves it. -/
theorem Involves.raises {m m' : Moment} (h : r.Involves m m') {error : TemplateError}
    (hm : m'.Raises r error) : m.Raises r error := by
  obtain ⟨stopped, site, why, hcomprises, hstops, herror⟩ := hm
  exact ⟨stopped, site, why, hcomprises.head h, hstops, herror⟩

/-- What is involved and accounted for. -/
theorem Accounts.raises {a : Activity} (ha : r.Accounts a) {m : Moment} {s : Session}
    (h : r.Involves m ⟨a, s⟩) {error : TemplateError} (herror : error.isHelperFailed = true)
    (hfails : (⟨a, s⟩ : Moment).Fails r (.template error)) : m.Raises r error :=
  h.raises (ha s error herror hfails)

/-! ## What has errors of its own -/

theorem not_failsFrom_resolve {f : Frame} {p : Path} {strict : Bool} {s : Session}
    {error : TemplateError} (herror : error.isHelperFailed = true) :
    ¬ (SessionM.ofExcept (f.resolve p strict)).FailsFrom s (.template error) := by
  intro h
  have hpath := Frame.isOfPath_resolve (failsFrom_ofExcept.1 h)
  cases error with
  | helperFailed => exact absurd hpath (by simp [TemplateError.isOfPath])
  | _ => exact absurd herror (by simp [TemplateError.isHelperFailed])

theorem not_failsFrom_partialNamed {name : Text} {s : Session} {error : TemplateError}
    (herror : error.isHelperFailed = true) :
    ¬ (r.env.partialNamed name).FailsFrom s (.template error) := by
  rintro ⟨t, ht⟩
  have hloads := r.env.partialNamed_loads name s trivial
  rw [ht] at hloads
  obtain ⟨-, ⟨e, he, hloading⟩ | ⟨e, he⟩⟩ := hloads
  swap
  · cases he
  obtain rfl := Failure.template.inj he
  cases error with
  | helperFailed =>
    exact absurd hloading (by simp [TemplateError.isOfLoading, TemplateError.isOfSource])
  | _ => exact absurd herror (by simp [TemplateError.isHelperFailed])

theorem not_failsFrom_helperFor {p : Path} {position : Position} {s : Session}
    {error : TemplateError} (herror : error.isHelperFailed = true) :
    ¬ (r.helperFor p position).FailsFrom s (.template error) := by
  rintro ⟨t, ht⟩
  rw [helperFor] at ht
  split at ht
  · cases ht
  · split at ht
    · cases ht
    · obtain rfl := Failure.template.inj (EStateM.Result.error.inj ht).1
      exact absurd herror (by simp [TemplateError.isHelperFailed])

/-- Behind a guard something fails, or it goes too deep. -/
theorem failsFrom_of_guarded {act : SessionM Text} {chain : List Label} {s : Session}
    {error : TemplateError} (herror : error.isHelperFailed = true)
    (h : (r.guarded chain act).FailsFrom s (.template error)) :
    act.FailsFrom s (.template error) := by
  obtain ⟨t, ht⟩ := h
  rw [guarded, SessionM.Lockstep.run_tryCatch] at ht
  cases hact : act.run s with
  | ok a u =>
    rw [hact] at ht
    cases ht
  | error e u =>
    rw [hact] at ht
    cases e with
    | exhausted reason =>
      obtain rfl := Failure.template.inj (EStateM.Result.error.inj ht).1
      exact absurd herror (by simp [TemplateError.isHelperFailed])
    | template e => exact ⟨t, hact.trans ht⟩
    | usage e => cases (EStateM.Result.error.inj ht).1
    | foreign e => cases (EStateM.Result.error.inj ht).1

/-! ## Scripts -/

section Scripts

variable {l : Level} {site : CallSite}

/-- A script is accounted for if its first request is, and what is left of it. -/
theorem accounts_of_step {α : Type} {script : Script Value} {output output' : Text}
    {request : SessionM α} {next : α → Script Value}
    (hstep : script.step r (r.rendererOf l).partialNamed site output =
      some (request >>= fun a => pure (next a, output')))
    (hrequest : ∀ s error, error.isHelperFailed = true → request.FailsFrom s (.template error) →
      (⟨.script l site script output, s⟩ : Moment).Raises r error)
    (hnext : ∀ a s t, request.run s = .ok a t → r.Accounts (.script l site (next a) output')) :
    r.Accounts (.script l site script output) := by
  intro s error herror h
  rw [Moment.Fails, Script.run_of_step hstep, bind_assoc] at h
  rcases failsFrom_bind.1 h with hfails | ⟨a, t, ht, hrest⟩
  · exact hrequest s error herror hfails
  · refine (hnext a s t ht).raises (.scriptRest hstep ?_) herror hrest
    rw [EStateM.run_bind, ht]
    rfl

/-- A script that goes on at once is accounted for if what is left of it is. -/
theorem accounts_of_step_pure {script next : Script Value} {output output' : Text}
    (hstep : script.step r (r.rendererOf l).partialNamed site output = some (pure (next, output')))
    (hnext : r.Accounts (.script l site next output')) :
    r.Accounts (.script l site script output) := by
  intro s error herror h
  rw [Moment.Fails, Script.run_of_step hstep] at h
  exact hnext.raises (.scriptRest hstep rfl) herror h

/-- A script that asks for what is never refused is accounted for if what is left of it is. -/
theorem accounts_of_step_ok {α : Type} {script : Script Value} {output output' : Text}
    {request : SessionM α} {next : α → Script Value}
    (hstep : script.step r (r.rendererOf l).partialNamed site output =
      some (request >>= fun a => pure (next a, output')))
    (hrequest : ∀ s e, ¬ request.FailsFrom s e)
    (hnext : ∀ a, r.Accounts (.script l site (next a) output')) :
    r.Accounts (.script l site script output) :=
  accounts_of_step hstep (fun s _ _ h => absurd h (hrequest s _)) fun a _ _ _ => hnext a

/-- A script that stops accounts for what it stops with. -/
theorem accounts_stop (why : Raised) (output : Text) :
    r.Accounts (.script l site (.stop why) output) := by
  rintro s error - ⟨t, ht⟩
  exact ⟨_, site, why, .refl, ⟨l, output, rfl⟩, (EStateM.Result.error.inj ht).1⟩

/-- A script that asks for something to be rendered is accounted for if that is, and what is left of
the script after an answer. -/
theorem accounts_of_ask {script : Script Value} {output output' : Text} {act : SessionM Text}
    {next : Text → Script Value}
    (hstep : script.step r (r.rendererOf l).partialNamed site output =
      some (Script.ask act next >>= fun rest => pure (rest, output')))
    (hact : ∀ s error, error.isHelperFailed = true → act.FailsFrom s (.template error) →
      (⟨.script l site script output, s⟩ : Moment).Raises r error)
    (hnext : ∀ t, r.Accounts (.script l site (next t) output')) :
    r.Accounts (.script l site script output) := by
  -- what comes of the request is what is left of the script
  have hrest : script.step r (r.rendererOf l).partialNamed site output =
      some (Script.ask act next >>= fun rest => pure (id rest, output')) := hstep
  refine accounts_of_step hrest (fun s error herror h => ?_) fun rest s t ht => ?_
  · exact hact s error herror (Script.failsFrom_ask.1 h)
  · rcases Script.exists_of_run_ask_eq_ok ht with ⟨answer, rfl⟩ | ⟨why, rfl⟩
    · exact hnext answer
    · exact accounts_stop why output'

/-- **A script is accounted for**, if the partials and branches are that it can ask for. -/
theorem accounts_script (hinsertion : ∀ name f, r.Accounts (.insertion l name f))
    (hsite : ∀ branches, site.branches = some branches →
      ∃ body inverse, branches = .ofNodes (r.rendererOf l).nodes body inverse ∧
        ∀ (branch : Branch) f, r.Accounts (.nodes l (branch.nodes body inverse) f))
    (script : Script Value) (output : Text) : r.Accounts (.script l site script output) := by
  induction script generalizing output with
  | done answer => exact fun s error _ h => absurd h not_failsFrom_pure
  | stop why => exact accounts_stop why output
  | render branch e next ih =>
    refine accounts_of_ask rfl (fun s error herror h => ?_) fun t => ih t output
    rw [CallSite.renderBranch] at h
    cases hbranches : site.branches with
    | none =>
      rw [hbranches] at h
      exact absurd h not_failsFrom_pure
    | some branches =>
      obtain ⟨body, inverse, rfl, hnodes⟩ := hsite branches hbranches
      rw [hbranches] at h
      dsimp only at h
      rw [render_ofNodes] at h
      exact (hnodes branch _).raises (.scriptBranch hbranches) herror h
  | partialNamed name context next ih =>
    refine accounts_of_ask rfl (fun s error herror h => ?_) fun t => ih t output
    exact (hinsertion name _).raises .scriptPartial herror h
  | resolve path next ih =>
    refine accounts_of_step (by rw [Script.step, ← bind_assoc]) (fun s error herror h => ?_)
      fun v _ _ _ => ih v output
    rcases failsFrom_bind.1 h with hpath | ⟨p, u, hp, hresolve⟩
    · obtain ⟨fault, -, hfault⟩ := Except.mapError_eq_error.1 (failsFrom_ofExcept.1 hpath)
      rw [← hfault] at herror
      exact absurd herror (by simp [TemplateError.isHelperFailed])
    · exact absurd hresolve (not_failsFrom_resolve herror)
  | readVariable name next ih =>
    exact accounts_of_step_pure rfl (ih _ output)
  | newStream items next ih =>
    exact accounts_of_step_ok rfl (fun _ _ => not_failsFrom_of_ok rfl) fun v => ih v output
  | read serial items count next ih =>
    exact accounts_of_step_ok rfl (fun _ _ => not_failsFrom_of_ok rfl) fun vs => ih vs output
  | write text next ih =>
    exact accounts_of_step_pure rfl (ih _)
  | written next ih =>
    exact accounts_of_step_pure rfl (ih _ output)
  | log level message next ih =>
    exact accounts_of_step_ok rfl (fun _ _ => not_failsFrom_of_ok rfl) fun _ => ih output

end Scripts

/-! ## Calls and expressions -/

section Expressions

variable {l : Level} {f : Frame}

/-- A call is accounted for if its parameters and its script are. -/
theorem accounts_call {c : Call} {position : Position} {branches : Option Branches}
    (hparams : r.Accounts (.exprs l c.params f))
    (hnamed : r.Accounts (.exprs l (c.named.map Prod.snd) f))
    (hscript : ∀ script,
      r.Accounts (.script l ⟨c.head.source, position, f, branches⟩ script [])) :
    r.Accounts (.call l c position branches f) := by
  intro s error herror h
  rw [Moment.Fails, callAt] at h
  rcases failsFrom_bind.1 h with hfails | ⟨helper, t, hhelper, h⟩
  · exact absurd hfails (not_failsFrom_helperFor herror)
  rcases failsFrom_bind.1 h with hfails | ⟨params, u, ht, h⟩
  · cases hvalues : r.stringParams with
    | true =>
      rw [arguments_eq_asWritten hvalues] at hfails
      exact absurd hfails not_failsFrom_pure
    | false =>
      rw [arguments_eq hvalues] at hfails
      exact hparams.raises (.params hvalues hhelper) herror hfails
  rcases failsFrom_bind.1 h with hfails | ⟨named, w, hu, h⟩
  · cases hvalues : r.stringParams with
    | true =>
      rw [namedArguments_eq_asWritten hvalues] at hfails
      exact absurd hfails not_failsFrom_pure
    | false =>
      rw [namedArguments_eq hvalues, bindings_eq] at hfails
      exact hnamed.raises (.named hvalues hhelper ht) herror hfails.of_bind_pure
  exact (hscript _).raises (.script hhelper ht hu) herror h

theorem accounts_exprs_cons {e : Expr} {es : List Expr} (he : r.Accounts (.expr l e f))
    (hes : r.Accounts (.exprs l es f)) : r.Accounts (.exprs l (e :: es) f) := by
  intro s error herror h
  rcases failsFrom_bind.1 h with hfails | ⟨v, t, hv, h⟩
  · exact he.raises .firstExpr herror hfails
  · exact hes.raises (.otherExprs hv) herror h.of_bind_pure

theorem accounts_exprs_nil : r.Accounts (.exprs l [] f) :=
  fun _ _ _ h => absurd h not_failsFrom_pure

mutual

/-- **An expression is accounted for** if the scripts of its calls are. -/
theorem accounts_expr
    (hscript : ∀ name script, r.Accounts (.script l ⟨name, .none, f, none⟩ script [])) :
    ∀ e, r.Accounts (.expr l e f)
  | .path p => by
    intro s error herror h
    rw [Moment.Fails, evaluate] at h
    exact absurd h (not_failsFrom_resolve herror)
  | .literal source literal => by
    intro s error herror h
    rw [Moment.Fails, evaluate] at h
    exact absurd h not_failsFrom_pure
  | .call source head params named => by
    have hparams := accounts_exprs hscript params
    have hnamed := accounts_named hscript named
    intro s error herror h
    rw [Moment.Fails, evaluate_group] at h
    exact (accounts_call hparams hnamed (hscript _)).raises .group herror h.of_bind_pure

theorem accounts_exprs
    (hscript : ∀ name script, r.Accounts (.script l ⟨name, .none, f, none⟩ script [])) :
    ∀ es, r.Accounts (.exprs l es f)
  | [] => accounts_exprs_nil
  | e :: es => accounts_exprs_cons (accounts_expr hscript e) (accounts_exprs hscript es)

theorem accounts_named
    (hscript : ∀ name script, r.Accounts (.script l ⟨name, .none, f, none⟩ script [])) :
    ∀ es : List (Text × Expr), r.Accounts (.exprs l (es.map Prod.snd) f)
  | [] => accounts_exprs_nil
  | (_, e) :: es => accounts_exprs_cons (accounts_expr hscript e) (accounts_named hscript es)

end

end Expressions

/-! ## Nodes and levels -/

/-- What is inside a level is accounted for, if another level may be entered from it. -/
def AccountsInside (r : Rendering) (l : Level) : Prop :=
  ∀ room label, l.room = room + 1 →
    (∀ ns f, r.Accounts (.nodes ⟨room, label :: l.chain⟩ ns f)) ∧
    ∀ inverted c body inverse position f,
      r.Accounts (.inside ⟨room, label :: l.chain⟩ inverted c body inverse position f)

section Levels

variable {l : Level}

theorem accounts_insertion (hinside : r.AccountsInside l) (name : Text) (f : Frame) :
    r.Accounts (.insertion l name f) := by
  intro s error herror h
  rw [Moment.Fails, partialNamed_eq] at h
  rcases failsFrom_bind.1 h with hfails | ⟨handle, t, hfound, h⟩
  · exact absurd hfails (not_failsFrom_partialNamed herror)
  obtain ⟨room, chain⟩ := l
  cases room with
  | zero =>
    obtain ⟨u, hu⟩ := h
    obtain rfl := Failure.template.inj (EStateM.Result.error.inj hu).1
    exact absurd herror (by simp [TemplateError.isHelperFailed])
  | succ room =>
    have hnodes := (hinside room (.partialNamed name) rfl).1 handle.template.nodes f
    exact hnodes.raises (.found hfound) herror (failsFrom_of_guarded herror h)

/-- Outside of sections scripts have no branches to ask for. -/
theorem accounts_script_of_none (hinside : r.AccountsInside l) (name : Text) (position : Position)
    (f : Frame) (script : Script Value) :
    r.Accounts (.script l ⟨name, position, f, none⟩ script []) :=
  accounts_script (accounts_insertion hinside) (fun _ h => absurd h (by simp)) script []

/-- **A node is accounted for** if what is inside its level is. -/
theorem accounts_node (hinside : r.AccountsInside l) (n : Node) (f : Frame) :
    r.Accounts (.node l n f) := by
  have hscript := accounts_script_of_none hinside
  have hexpr (e : Expr) : r.Accounts (.expr l e f) :=
    accounts_expr (fun name script => hscript name .none f script) e
  have hexprs (es : List Expr) : r.Accounts (.exprs l es f) :=
    accounts_exprs (fun name script => hscript name .none f script) es
  intro s error herror h
  cases n with
  | text t => exact absurd h not_failsFrom_pure
  | comment content => exact absurd h not_failsFrom_pure
  | output escaped c position =>
    have hvalue : (r.outputValue (r.rendererOf l).partialNamed f c position).FailsFrom s
        (.template error) := h.of_bind_pure
    rw [outputValue] at hvalue
    split at hvalue
    · next harguments =>
      have hcall := accounts_call (hexprs c.params) (hexprs _) (hscript c.head.source position f)
      exact hcall.raises (.outputCall harguments) herror hvalue
    · next harguments =>
      rcases failsFrom_bind.1 hvalue with hfails | ⟨v, t, ht, hanswer⟩
      · exact absurd hfails (not_failsFrom_resolve herror)
      obtain ⟨hv, rfl⟩ := SessionM.run_ofExcept_eq_ok ht
      split at hanswer
      · split at hanswer
        · next helper hhelper =>
          have hcall := hscript c.head.source position f
            (r.scriptOf ⟨c.head.source, position, f, none⟩ helper [] [])
          rw [Bool.not_eq_true] at harguments
          exact hcall.raises (.outputHelper harguments hv hhelper) herror hanswer
        · exact absurd hanswer.of_bind_pure (not_failsFrom_resolve herror)
      · exact absurd hanswer not_failsFrom_pure
  | block inverted c body inverse position =>
    obtain ⟨room, chain⟩ := l
    cases room with
    | zero =>
      obtain ⟨u, hu⟩ := h
      obtain rfl := Failure.template.inj (EStateM.Result.error.inj hu).1
      exact absurd herror (by simp [TemplateError.isHelperFailed])
    | succ room =>
      have hblock := (hinside room (.ofSection inverted c) rfl).2 inverted c body inverse position f
      exact hblock.raises .block herror (failsFrom_of_guarded herror h)
  | partialTag c indent position =>
    rcases failsFrom_bind.1 h with hfails | ⟨name, t, hname, h⟩
    · exact (hexpr c.name).raises .partialName herror (partialName_failsFrom.1 hfails)
    rcases failsFrom_bind.1 h with hfails | ⟨g, u, hframe, h⟩
    · rw [partialFrame_eq] at hfails
      split at hfails
      · exact absurd hfails not_failsFrom_pure
      rcases failsFrom_bind.1 hfails with hcontext | ⟨v, w, hv, hbindings⟩
      · rw [contextOf] at hcontext
        cases hc : c.context with
        | none =>
          rw [hc] at hcontext
          exact absurd hcontext not_failsFrom_pure
        | some e =>
          rw [hc] at hcontext
          exact (hexpr e).raises (.partialContext hname hc) herror hcontext
      · have hnamed := hbindings.of_bind_pure
        rw [bindings_eq] at hnamed
        exact (hexprs _).raises (.partialBindings hname hv) herror hnamed.of_bind_pure
    · have hinsertion := accounts_insertion hinside name g
      exact hinsertion.raises (.partialInsertion hname hframe) herror h.of_bind_pure

theorem accounts_nodes_of_inside (hinside : r.AccountsInside l) (ns : List Node) (f : Frame) :
    r.Accounts (.nodes l ns f) := by
  induction ns with
  | nil =>
    intro s error herror h
    rw [Moment.Fails, rendererOf_eq] at h
    exact absurd h not_failsFrom_pure
  | cons n ns ih =>
    intro s error herror h
    rw [Moment.Fails, nodes_cons] at h
    rcases failsFrom_bind.1 h with hfails | ⟨first, t, ht, h⟩
    · exact (accounts_node hinside n f).raises .firstNode herror hfails
    · exact ih.raises (.otherNodes ht) herror h.of_bind_pure

theorem accounts_repeated (ns : List Node) (hnodes : ∀ f, r.Accounts (.nodes l ns f))
    (fs : List Frame) : r.Accounts (.repeated l ns fs) := by
  induction fs with
  | nil => exact fun s error _ h => absurd h not_failsFrom_pure
  | cons f fs ih =>
    intro s error herror h
    rcases failsFrom_bind.1 h with hfails | ⟨first, t, ht, h⟩
    · exact (hnodes f).raises .firstFrame herror hfails
    · exact ih.raises (.otherFrames ht) herror h.of_bind_pure

/-- What a section consists of is accounted for. -/
theorem accounts_inside (hinside : r.AccountsInside l) (inverted : Bool) (c : Call)
    (body : List Node) (inverse : Option (List Node)) (position : Position) (f : Frame) :
    r.Accounts (.inside l inverted c body inverse position f) := by
  have hnodes := accounts_nodes_of_inside hinside
  have hexprs (es : List Expr) : r.Accounts (.exprs l es f) :=
    accounts_exprs (fun name script => accounts_script_of_none hinside name .none f script) es
  have hbranches : ∃ given other, r.sectionBranches l inverted body inverse =
      .ofNodes (r.rendererOf l).nodes given other := by
    cases inverted with
    | true => exact ⟨inverse, some body, rfl⟩
    | false => exact ⟨some body, inverse, rfl⟩
  intro s error herror h
  rw [Moment.Fails, insideBlock] at h
  split at h
  · next hcall =>
    have hscript (script : Script Value) : r.Accounts (.script l ⟨c.head.source, position, f,
        some (r.sectionBranches l inverted body inverse)⟩ script []) := by
      refine accounts_script (accounts_insertion hinside) (fun branches h => ?_) script []
      obtain ⟨given, other, hgiven⟩ := hbranches
      refine ⟨given, other, ?_, fun branch g => hnodes _ g⟩
      rw [← hgiven]
      exact (Option.some.inj h).symm
    have haccounts := accounts_call (hexprs c.params) (hexprs (c.named.map Prod.snd)) hscript
    exact haccounts.raises (.blockCall hcall) herror h.of_bind_pure
  · next hcall =>
    rw [Bool.not_eq_true] at hcall
    rcases failsFrom_bind.1 h with hfails | ⟨v, t, ht, hbranch⟩
    · exact absurd hfails (not_failsFrom_resolve herror)
    · obtain ⟨hv, rfl⟩ := SessionM.run_ofExcept_eq_ok ht
      rw [plain_eq] at hbranch
      have hrepeated := accounts_repeated _ (fun g => hnodes
        ((f.ofSection inverted v).1.nodes (some body) inverse) g) (f.ofSection inverted v).2
      exact hrepeated.raises (.blockBranch hcall hv) herror hbranch

end Levels

/-- What is inside a level is accounted for, because there is less room inside it. -/
theorem accountsInside (room : Nat) (chain : List Label) : r.AccountsInside ⟨room, chain⟩ := by
  induction room generalizing chain with
  | zero => exact fun room label h => absurd h nofun
  | succ room ih =>
    intro room' label h
    obtain rfl := Nat.succ.inj h
    exact ⟨accounts_nodes_of_inside (ih _), accounts_inside (ih _)⟩

/-- **Nodes are accounted for on every level.** -/
theorem accounts_nodes (l : Level) (ns : List Node) (f : Frame) : r.Accounts (.nodes l ns f) :=
  accounts_nodes_of_inside (accountsInside l.room l.chain) ns f

end Rendering

end Stencil
