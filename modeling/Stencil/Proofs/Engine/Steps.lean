import Stencil.Proofs.Engine.Alike

/-!
# Using an engine step by step

Whoever uses an engine works with the templates that it has answered: they are rendered later on, or
registered as partials.  A `Step` can therefore name the answer of an earlier step, and `follow`
takes steps one after another.  A step that names an answer without a template is skipped.

`follow_alike` is the run lemma for engines that are alike: taking the same steps, they give answers
that are alike, up to the first one that reports an excused failure.  As an engine that has just
been made is alike to itself, an engine that steps have led to is so too, which says that its cache
is coherent (`coherent_follow_create`).
-/

set_option autoImplicit false

namespace Stencil

/-- A step in the use of an engine. -/
inductive Step where
  /-- Asks for something that does not depend on the steps before. -/
  | ask (q : Request)
  /-- Registers the template that an earlier step has answered as a partial. -/
  | registerPartial (name : Text) (earlier : Nat)
  /-- Renders the template that an earlier step has answered. -/
  | render (earlier : Nat) (data : Value)
  /-- Renders the template that an earlier step has answered node by node. -/
  | renderNodes (earlier : Nat) (data : Value)

/-- The template in an answer, if there is one. -/
def Answer.handle? : Answer → Option Handle
  | .template h => some h
  | _ => none

/-- The template that a step has answered, if it has. -/
def Step.handleAt? (answers : List (Option Answer)) (index : Nat) : Option Handle :=
  (answers[index]?.join).bind Answer.handle?

/-- What a step asks for, by the answers of the steps before it. -/
def Step.request? (answers : List (Option Answer)) : Step → Option Request
  | .ask q => some q
  | .registerPartial name earlier => (handleAt? answers earlier).map (.registerPartial name)
  | .render earlier data => (handleAt? answers earlier).map (.render · data)
  | .renderNodes earlier data => (handleAt? answers earlier).map (.renderNodes · data)

namespace Engine

/-- Takes some steps, when other steps have been answered before.  A step that is skipped has no
answer. -/
def follow (e : Engine) (before : List (Option Answer)) :
    List Step → List (Option Answer) × Engine
  | [] => ([], e)
  | step :: steps =>
    match step.request? before with
    | none =>
      let (answers, e) := e.follow (before ++ [none]) steps
      (none :: answers, e)
    | some q =>
      let (answer, e) := e.serve q
      let (answers, e) := e.follow (before ++ [some answer]) steps
      (some answer :: answers, e)

end Engine

variable {templates : Template → Template → Prop} {excused : Failure → Prop}

/-- How the answers to the same steps, and the engines that have given them, are related. -/
inductive Engine.Followed (templates : Template → Template → Prop) (excused : Failure → Prop) :
    List (Option Answer) × Engine → List (Option Answer) × Engine → Prop
  /-- There is no step left, and the engines are alike. -/
  | done {a b : Engine} (hengines : a.Alike templates excused b) :
      Followed templates excused ([], a) ([], b)
  /-- The answers to a step are alike. -/
  | step {x y : Option Answer} {xs ys : List (Option Answer)} {a b : Engine}
      (hanswer : Option.Rel (Answer.Alike templates) x y)
      (hrest : Followed templates excused (xs, a) (ys, b)) :
      Followed templates excused (x :: xs, a) (y :: ys, b)
  /-- The left answer to a step is excused. -/
  | excused {x : Answer} {xs : List (Option Answer)} {a : Engine}
      {r : List (Option Answer) × Engine} (hx : x.Excused excused) :
      Followed templates excused (some x :: xs, a) r

theorem Answer.Alike.handle?_rel {x y : Answer} (h : x.Alike templates y)
    (hrefl : ∀ t, templates t t) :
    Option.Rel (fun h h' => templates h.template h'.template) x.handle? y.handle? := by
  cases h with
  | template ht => exact .some ht
  | same =>
    cases x with
    | template h => exact .some (hrefl _)
    | _ => exact .none

/-- Answers that are alike have templates that stand for each other at the same places. -/
theorem Step.handleAt?_rel {xs ys : List (Option Answer)}
    (h : List.Forall₂ (Option.Rel (Answer.Alike templates)) xs ys)
    (hrefl : ∀ t, templates t t) (index : Nat) :
    Option.Rel (fun h h' => templates h.template h'.template) (handleAt? xs index)
      (handleAt? ys index) := by
  induction h generalizing index with
  | nil => exact .none
  | @cons x y xs ys hxy hrest ih =>
    cases index with
    | zero =>
      cases hxy with
      | none => exact .none
      | some hanswer => exact hanswer.handle?_rel hrefl
    | succ index => exact ih index

theorem rel_map {α β γ δ : Type} {values : α → β → Prop} {after : γ → δ → Prop} {x : Option α}
    {y : Option β} (h : Option.Rel values x y) {f : α → γ} {g : β → δ}
    (hfg : ∀ a b, values a b → after (f a) (g b)) : Option.Rel after (x.map f) (y.map g) := by
  cases h with
  | none => exact .none
  | some hab => exact .some (hfg _ _ hab)

/-- A step asks for the same after answers that are alike. -/
theorem Step.request?_rel {xs ys : List (Option Answer)}
    (h : List.Forall₂ (Option.Rel (Answer.Alike templates)) xs ys)
    (hrefl : ∀ t, templates t t) (step : Step) :
    Option.Rel (Request.Alike templates) (step.request? xs) (step.request? ys) := by
  cases step with
  | ask q => exact .some (.same q)
  | registerPartial name earlier =>
    exact rel_map (handleAt?_rel h hrefl earlier) fun _ _ => .registerPartial name
  | render earlier data =>
    exact rel_map (handleAt?_rel h hrefl earlier) fun _ _ ht => .render ht data
  | renderNodes earlier data =>
    exact rel_map (handleAt?_rel h hrefl earlier) fun _ _ ht => .renderNodes ht data

namespace Engine

/-- **Engines that are alike stay alike** over any steps, as long as no failure is excused. -/
theorem follow_alike (htemplates : StandsFor templates excused) {a b : Engine}
    (h : a.Alike templates excused b) {xs ys : List (Option Answer)}
    (hbefore : List.Forall₂ (Option.Rel (Answer.Alike templates)) xs ys) (steps : List Step) :
    Followed templates excused (a.follow xs steps) (b.follow ys steps) := by
  induction steps generalizing a b xs ys with
  | nil => exact .done h
  | cons step steps ih =>
    have hrequest := step.request?_rel hbefore htemplates.refl
    rw [follow, follow]
    generalize step.request? xs = p? at hrequest ⊢
    generalize step.request? ys = q? at hrequest ⊢
    cases hrequest with
    | none => exact .step .none (ih h (List.rel_append hbefore (.cons .none .nil)))
    | @some p q hpq =>
      have hserved := serve_alike h htemplates hpq
      dsimp only
      generalize a.serve p = left at hserved ⊢
      generalize b.serve q = right at hserved ⊢
      cases hserved with
      | alike hanswer hengines =>
        exact .step (.some hanswer)
          (ih hengines (List.rel_append hbefore (.cons (.some hanswer) .nil)))
      | excused hx => exact .excused hx

/-- If no failure is excused, all answers are alike. -/
theorem Followed.forall₂ {x y : List (Option Answer) × Engine}
    (h : Followed templates (fun _ => False) x y) :
    List.Forall₂ (Option.Rel (Answer.Alike templates)) x.1 y.1 ∧
      x.2.Alike templates (fun _ => False) y.2 := by
  induction h with
  | done hengines => exact ⟨.nil, hengines⟩
  | step hanswer hrest ih => exact ⟨.cons hanswer ih.1, ih.2⟩
  | excused hx =>
    cases hx with
    | failed he => exact he.elim
    | outputs texts he => exact he.elim

end Engine

/-! ## Engines that have just been made -/

theorem standsFor_eq {excused : Failure → Prop}
    (hexhausted : ∀ reason, ¬ excused (.exhausted reason))
    (hpassed : ∀ e, excused e → e.IsPassedOn) : StandsFor Eq excused where
  refl _ := rfl
  nodes h := by rw [h]
  stringParams h := by rw [h]
  resolve h f p := .inl (by rw [h])
  exhausted := hexhausted
  passed := hpassed

/-- A template stands for itself without excuses. -/
theorem standsFor_self : StandsFor Eq fun _ => False :=
  standsFor_eq (fun _ => id) fun _ he => he.elim

/-- An environment is alike to itself. -/
theorem Environment.alike_refl (hrefl : ∀ t, templates t t) (env : Environment) :
    env.Alike templates excused env :=
  ⟨rfl, rfl, rfl, .inl rfl, .refl (fun _ _ _ _ => .refl hrefl _) _⟩

namespace Engine

/-- Engines that have just been made remember nothing, so they are alike if their environments
are. -/
theorem alike_of_env {a b : Engine} (ha : a.session = {}) (hb : b.session = {})
    (h : a.env.Alike templates excused b.env) (next : Nat) :
    (a.withStreams next).Alike templates excused (b.withStreams next) := by
  obtain ⟨q, s⟩ := a
  obtain ⟨r, t⟩ := b
  subst ha hb
  exact ⟨h, ⟨.nil, Store.coherent_of_cache_eq_empty rfl _, Store.coherent_of_cache_eq_empty rfl _⟩,
    rfl, rfl, rfl⟩

/-- Answering a request keeps the cache coherent. -/
theorem coherent_serve {e : Engine} (h : e.session.store.Coherent e.env.helpers.known)
    (q : Request) :
    (e.serve q).2.session.store.Coherent (e.serve q).2.env.helpers.known := by
  have hself : e.Alike Eq (fun _ => False) e :=
    ⟨Environment.alike_refl (fun _ => rfl) _, Session.alike_self (fun _ => rfl) h⟩
  have hserved := serve_alike hself standsFor_self (.same q)
  generalize e.serve q = outcome at hserved ⊢
  cases hserved with
  | alike hanswer hengines => exact hengines.session.stores.left
  | excused hx =>
    cases hx with
    | failed he => exact he.elim
    | outputs texts he => exact he.elim

/-- **The cache of an engine is always coherent**, whatever steps have led to it. -/
theorem coherent_follow_create (config : EngineConfig) (loader : Option Loader)
    (escape : Option Escaper) (tree : FileTree) (next : Nat) (steps : List Step) :
    let e := (((create config loader escape tree).withStreams next).follow [] steps).2
    e.session.store.Coherent e.env.helpers.known := by
  have hcreate : ((create config loader escape tree).withStreams next).Alike Eq
      (fun _ => False) ((create config loader escape tree).withStreams next) :=
    alike_of_env rfl rfl (Environment.alike_refl (fun _ => rfl) _) next
  have hfollow := follow_alike standsFor_self hcreate .nil steps
  exact hfollow.forall₂.2.session.stores.left

/-- An engine is reachable if some steps have led to it from an engine that had just been made. -/
def IsReachable (e : Engine) : Prop :=
  ∃ (config : EngineConfig) (loader : Option Loader) (escape : Option Escaper) (tree : FileTree)
    (next : Nat) (steps : List Step),
    e = (((create config loader escape tree).withStreams next).follow [] steps).2

theorem IsReachable.coherent {e : Engine} (h : e.IsReachable) :
    e.session.store.Coherent e.env.helpers.known := by
  obtain ⟨config, loader, escape, tree, next, steps, rfl⟩ := h
  exact coherent_follow_create config loader escape tree next steps

/-- What holds of an engine that has just been made and is kept by every request holds of every
reachable engine. -/
@[elab_as_elim]
theorem IsReachable.induction {motive : Engine → Prop}
    (create : ∀ config loader escape tree next,
      motive ((Engine.create config loader escape tree).withStreams next))
    (serve : ∀ (e : Engine) (q : Request), motive e → motive (e.serve q).2) {e : Engine}
    (h : e.IsReachable) : motive e := by
  have hfollow : ∀ (steps : List Step) (before : List (Option Answer)) (e : Engine),
      motive e → motive (e.follow before steps).2 := by
    intro steps
    induction steps with
    | nil => exact fun _ _ he => he
    | cons step steps ih =>
      intro before e he
      rw [follow]
      cases step.request? before with
      | none => exact ih _ e he
      | some q => exact ih _ _ (serve e q he)
  obtain ⟨config, loader, escape, tree, next, steps, rfl⟩ := h
  exact hfollow steps [] _ (create config loader escape tree next)

/-- The engine, with what it remembers, among the streams and with the log of a session.  Streams
belong to the data and the log to those who read it, so neither is the engine's own. -/
def inSession (e : Engine) (s : Session) : Engine :=
  { e with session := { s with store := e.session.store } }

end Engine

end Stencil
