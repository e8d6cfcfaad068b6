import Mathlib.Data.List.Forall2
import Stencil.Engine.Session
import Stencil.Proofs.Except

/-!
# Two sessions in lockstep

Many facts about an engine compare two runs of it: with a cache and without, with strict resolution
and without.  The two sessions do not become equal, because their stores differ, but they stay
*alike*: their stores are related in some way, their streams have been read equally far, and apart
from what is only of interest when looking for a mistake they have logged the same.

`Lockstep stores excused results x y` says of two operations that they lead from sessions that are
alike to sessions that are alike, with related results or with the same failure.  The operation on
the left may also fail with an excused failure, and then nothing is said about the other one.

The relation is closed under everything that operations are made of, so that two operations are in
lockstep as soon as the parts are in which they differ.
-/

set_option autoImplicit false

namespace Stencil

/-- Whether an event is of interest to anyone but those who look for a mistake. -/
def Event.isNotable (e : Event) : Bool :=
  e.level ≠ .debug

/-- Two sessions are alike if their stores are related and nothing else that matters tells them
apart. -/
structure Session.Alike (stores : Store → Store → Prop) (s t : Session) : Prop where
  /-- The stores are related. -/
  stores : stores s.store t.store
  /-- The same streams have been made. -/
  nextStream : s.nextStream = t.nextStream
  /-- The streams have been read equally far. -/
  itemsRead : s.itemsRead = t.itemsRead
  /-- The same notable events have been logged. -/
  log : s.log.filter Event.isNotable = t.log.filter Event.isNotable

namespace SessionM

variable {α β γ δ : Type}

/-- An operation keeps an invariant of the session, also when it fails, and its results are of some
kind. -/
def Keeps (invariant : Session → Prop) (result : α → Prop) (x : SessionM α) : Prop :=
  ∀ s : Session, invariant s →
    match x.run s with
    | .ok a t => invariant t ∧ result a
    | .error _ t => invariant t

/-- Locking a name does something between two changes of the store. -/
theorem run_locking (name : Text) (act : SessionM α) (s : Session) :
    (locking name act).run s =
      match act.run { s with store := s.store.lock name } with
      | .ok a t => .ok a { t with store := t.store.unlock name }
      | .error e t => .error e { t with store := t.store.unlock name } := by
  show EStateM.map Prod.fst (EStateM.instMonadFinally.tryFinally' act fun _ =>
    modifyStore (·.unlock name)) { s with store := s.store.lock name } = _
  delta EStateM.map EStateM.instMonadFinally
  have hrun : ∀ t, act.run t = act t := fun _ => rfl
  rw [hrun]
  dsimp only
  cases act { s with store := s.store.lock name } <;> rfl

/-- A registered partial is answered; else it depends on what is done in its place. -/
theorem run_registeredOr (name : Text) (otherwise : SessionM Handle) (s : Session) :
    (registeredOr name otherwise).run s =
      match Table.get? s.store.partials name with
      | some h => .ok h s
      | none => otherwise.run s := by
  rw [registeredOr, EStateM.run_bind, EStateM.run_get]
  dsimp only
  cases Table.get? s.store.partials name <;> rfl

namespace Keeps

variable {invariant : Session → Prop}

theorem pure {result : α → Prop} {a : α} (h : result a) : Keeps invariant result (Pure.pure a) :=
  fun _ hs => ⟨hs, h⟩

theorem throw {result : α → Prop} (e : Failure) :
    Keeps invariant result (MonadExcept.throw e) :=
  fun _ hs => hs

/-- What keeps an invariant may go on with what keeps it. -/
theorem bind {result : α → Prop} {x : SessionM α} (hx : x.Keeps invariant result)
    {after : β → Prop} {f : α → SessionM β} (hf : ∀ a, result a → (f a).Keeps invariant after) :
    (x >>= f).Keeps invariant after := by
  intro s hs
  have hrun := hx s hs
  rw [EStateM.run_bind]
  generalize x.run s = outcome at hrun
  cases outcome with
  | ok a t => exact hf a hrun.2 t hrun.1
  | error e t => exact hrun

theorem get_bind {result : α → Prop} {f : Session → SessionM α}
    (h : ∀ s : Session, invariant s → (f s).Keeps invariant result) :
    (MonadState.get >>= f).Keeps invariant result :=
  fun s hs => h s hs s hs

theorem record {events : List Event}
    (h : ∀ s : Session, invariant s → invariant { s with log := events.reverse ++ s.log }) :
    (SessionM.record events).Keeps invariant fun _ => True :=
  fun s hs => ⟨h s hs, trivial⟩

theorem modifyStore {change : Store → Store}
    (h : ∀ s : Session, invariant s → invariant { s with store := change s.store }) :
    (SessionM.modifyStore change).Keeps invariant fun _ => True :=
  fun s hs => ⟨h s hs, trivial⟩

/-- What keeps an invariant under a lock keeps the one that becomes of it when the lock is given
back. -/
theorem locking {inside : Session → Prop} {result : α → Prop} {x : SessionM α}
    (hx : x.Keeps inside result) {name : Text}
    (hlock : ∀ s : Session, invariant s → inside { s with store := s.store.lock name })
    (hunlock : ∀ s : Session, inside s → invariant { s with store := s.store.unlock name }) :
    (SessionM.locking name x).Keeps invariant result := by
  intro s hs
  have hrun := hx _ (hlock s hs)
  rw [run_locking]
  generalize x.run { s with store := s.store.lock name } = outcome at hrun
  cases outcome with
  | ok a t => exact ⟨hunlock t hrun.1, hrun.2⟩
  | error e t => exact hunlock t hrun

/-- A registered partial is of some kind, or what is answered for it keeps the invariant. -/
theorem registeredOr {result : Handle → Prop} {name : Text} {otherwise : SessionM Handle}
    (hfound : ∀ (s : Session) (h : Handle), invariant s →
      Table.get? s.store.partials name = some h → result h)
    (hotherwise : ∀ s : Session, invariant s → Table.get? s.store.partials name = none →
      otherwise.Keeps invariant result) :
    (SessionM.registeredOr name otherwise).Keeps invariant result := by
  rw [SessionM.registeredOr]
  refine get_bind fun s hs => ?_
  cases hget : Table.get? s.store.partials name with
  | some h => exact pure (hfound s h hs hget)
  | none => exact hotherwise s hs hget

end Keeps

/-- How the outcomes of two operations are related. -/
inductive Outcomes (stores : Store → Store → Prop) (excused : Failure → Prop)
    (results : α → β → Prop) :
    EStateM.Result Failure Session α → EStateM.Result Failure Session β → Prop
  /-- Both succeed. -/
  | ok {a : α} {b : β} {s t : Session} (hresult : results a b) (halike : s.Alike stores t) :
      Outcomes stores excused results (.ok a s) (.ok b t)
  /-- Both fail in the same way. -/
  | error {e : Failure} {s t : Session} (halike : s.Alike stores t) :
      Outcomes stores excused results (.error e s) (.error e t)
  /-- The left one fails and is excused. -/
  | excused {e : Failure} {s : Session} {r : EStateM.Result Failure Session β} (he : excused e) :
      Outcomes stores excused results (.error e s) r

/-- Two operations are in lockstep if they lead from sessions that are alike to related outcomes. -/
def Lockstep (stores : Store → Store → Prop) (excused : Failure → Prop) (results : α → β → Prop)
    (x : SessionM α) (y : SessionM β) : Prop :=
  ∀ s t : Session, s.Alike stores t → Outcomes stores excused results (x.run s) (y.run t)

namespace Lockstep

variable {stores : Store → Store → Prop} {excused : Failure → Prop}

theorem pure {results : α → β → Prop} {a : α} {b : β} (h : results a b) :
    Lockstep stores excused results (Pure.pure a) (Pure.pure b) :=
  fun _ _ halike => .ok h halike

theorem throw {results : α → β → Prop} (e : Failure) :
    Lockstep stores excused results (MonadExcept.throw e) (MonadExcept.throw e) :=
  fun _ _ halike => .error halike

theorem of_excused {results : α → β → Prop} {e : Failure} (h : excused e) (y : SessionM β) :
    Lockstep stores excused results (MonadExcept.throw e) y :=
  fun _ _ _ => .excused h

/-- What goes on in lockstep after operations in lockstep is in lockstep. -/
theorem bind {results : α → β → Prop} {x : SessionM α} {y : SessionM β}
    (hx : Lockstep stores excused results x y) {after : γ → δ → Prop} {f : α → SessionM γ}
    {g : β → SessionM δ}
    (hf : ∀ a b, results a b → Lockstep stores excused after (f a) (g b)) :
    Lockstep stores excused after (x >>= f) (y >>= g) := by
  intro s t halike
  have houtcomes := hx s t halike
  rw [EStateM.run_bind, EStateM.run_bind]
  generalize x.run s = left at houtcomes
  generalize y.run t = right at houtcomes
  cases houtcomes with
  | ok hresult halike' => exact hf _ _ hresult _ _ halike'
  | error halike' => exact .error halike'
  | excused he => exact .excused he

theorem bind_eq {x y : SessionM α} (hx : Lockstep stores excused Eq x y) {after : γ → δ → Prop}
    {f : α → SessionM γ} {g : α → SessionM δ}
    (hf : ∀ a, Lockstep stores excused after (f a) (g a)) :
    Lockstep stores excused after (x >>= f) (y >>= g) :=
  hx.bind fun a _ h => h ▸ hf a

/-- Computations about templates with related results are in lockstep. -/
theorem ofExcept {results : α → β → Prop} {r : Except TemplateError α} {r' : Except TemplateError β}
    (h : Except.Rel results r r') :
    Lockstep stores excused results (SessionM.ofExcept r) (SessionM.ofExcept r') := by
  cases h with
  | ok h => exact pure h
  | error e => exact throw _

theorem mono {results after : α → β → Prop} {x : SessionM α} {y : SessionM β}
    (hx : Lockstep stores excused results x y) (h : ∀ a b, results a b → after a b) :
    Lockstep stores excused after x y := by
  intro s t halike
  have houtcomes := hx s t halike
  generalize x.run s = left at houtcomes ⊢
  generalize y.run t = right at houtcomes ⊢
  cases houtcomes with
  | ok hresult halike' => exact .ok (h _ _ hresult) halike'
  | error halike' => exact .error halike'
  | excused he => exact .excused he

/-- What looks at the session goes on in lockstep if that is so for sessions that are alike. -/
theorem get_bind {results : α → β → Prop} {f : Session → SessionM α} {g : Session → SessionM β}
    (h : ∀ s t : Session, s.Alike stores t → Lockstep stores excused results (f s) (g t)) :
    Lockstep stores excused results (MonadState.get >>= f) (MonadState.get >>= g) :=
  fun s t halike => h s t halike s t halike

/-! ### What changes a session -/

/-- Logging the same keeps sessions alike. -/
theorem record (events : List Event) :
    Lockstep stores excused Eq (SessionM.record events) (SessionM.record events) := by
  intro s t halike
  refine .ok rfl ⟨halike.stores, halike.nextStream, halike.itemsRead, ?_⟩
  rw [List.filter_append, List.filter_append, halike.log]

/-- Making streams of related items gives the same number to them. -/
theorem newStream {values : Value → Value → Prop} {items items' : List Value}
    (h : ∀ serial, values (.stream serial items) (.stream serial items')) :
    Lockstep stores excused values (SessionM.newStream items) (SessionM.newStream items') := by
  intro s t halike
  have hstream := halike.nextStream
  refine .ok ?_ ⟨halike.stores, ?_, halike.itemsRead, halike.log⟩
  · show values (.stream s.nextStream items) (.stream t.nextStream items')
    rw [← hstream]
    exact h _
  · exact congrArg (· + 1) hstream

/-- Reading from streams of related items, with the same number, leads to related items. -/
theorem read {values : Value → Value → Prop} (serial : Nat) {items items' : List Value}
    (h : List.Forall₂ values items items') (count : Nat) :
    Lockstep stores excused (List.Forall₂ values) (SessionM.read serial items count)
      (SessionM.read serial items' count) := by
  intro s t halike
  have hread := halike.itemsRead
  have hnext : List.Forall₂ values
      ((items.drop ((s.itemsRead.lookup serial).getD 0)).take count)
      ((items'.drop ((t.itemsRead.lookup serial).getD 0)).take count) := by
    rw [← hread]
    exact List.forall₂_take _ (List.forall₂_drop _ h)
  refine .ok hnext ⟨halike.stores, halike.nextStream, ?_, halike.log⟩
  show (serial, (s.itemsRead.lookup serial).getD 0 + _) :: s.itemsRead.filter _ =
    (serial, (t.itemsRead.lookup serial).getD 0 + _) :: t.itemsRead.filter _
  rw [hnext.length_eq, hread]

/-- Changing the stores in ways that keep them related keeps sessions alike. -/
theorem modifyStore {change change' : Store → Store}
    (h : ∀ s t, stores s t → stores (change s) (change' t)) :
    Lockstep stores excused Eq (SessionM.modifyStore change) (SessionM.modifyStore change') :=
  fun _ _ halike =>
    .ok rfl ⟨h _ _ halike.stores, halike.nextStream, halike.itemsRead, halike.log⟩

/-- What is in lockstep is so under locks, if the locks do not matter for how stores are related. -/
theorem locking {results : α → β → Prop} {x : SessionM α} {y : SessionM β}
    (hxy : Lockstep stores excused results x y) {name : Text}
    (hlock : ∀ s t, stores s t → stores (s.lock name) (t.lock name))
    (hunlock : ∀ s t, stores s t → stores (s.unlock name) (t.unlock name)) :
    Lockstep stores excused results (SessionM.locking name x) (SessionM.locking name y) := by
  intro s t halike
  obtain ⟨hstores, hstream, hread, hlog⟩ := halike
  have houtcomes := hxy { s with store := s.store.lock name } { t with store := t.store.lock name }
    ⟨hlock _ _ hstores, hstream, hread, hlog⟩
  rw [run_locking, run_locking]
  generalize x.run { s with store := s.store.lock name } = left at houtcomes
  generalize y.run { t with store := t.store.lock name } = right at houtcomes
  cases houtcomes with
  | ok hresult halike' =>
    obtain ⟨hstores', hstream', hread', hlog'⟩ := halike'
    exact .ok hresult ⟨hunlock _ _ hstores', hstream', hread', hlog'⟩
  | error halike' =>
    obtain ⟨hstores', hstream', hread', hlog'⟩ := halike'
    exact .error ⟨hunlock _ _ hstores', hstream', hread', hlog'⟩
  | excused he => exact .excused he

/-- Partials are looked up in lockstep, if the stores have related ones. -/
theorem registeredOr {results : Handle → Handle → Prop} {name : Text}
    {otherwise otherwise' : SessionM Handle}
    (hget : ∀ s t, stores s t → Option.Rel results (Table.get? s.partials name)
      (Table.get? t.partials name))
    (hotherwise : Lockstep stores excused results otherwise otherwise') :
    Lockstep stores excused results (SessionM.registeredOr name otherwise)
      (SessionM.registeredOr name otherwise') := by
  rw [SessionM.registeredOr, SessionM.registeredOr]
  refine get_bind fun s t halike => ?_
  have hfound := hget s.store t.store halike.stores
  generalize Table.get? s.store.partials name = left at hfound ⊢
  generalize Table.get? t.store.partials name = right at hfound ⊢
  cases hfound with
  | none => exact hotherwise
  | some hresult => exact pure hresult

/-! ### Invariants of one side -/

/-- What holds of the stores on the left as long as it is kept may be added to what relates the
stores. -/
theorem keeping {results : α → β → Prop} {x : SessionM α} {y : SessionM β}
    (hxy : Lockstep stores excused results x y) {invariant : Store → Prop} {result : α → Prop}
    (hx : x.Keeps (fun s => invariant s.store) result) :
    Lockstep (fun s t => stores s t ∧ invariant s) excused (fun a b => results a b ∧ result a)
      x y := by
  intro s t halike
  obtain ⟨⟨hstores, hinvariant⟩, hstream, hread, hlog⟩ := halike
  have houtcomes := hxy s t ⟨hstores, hstream, hread, hlog⟩
  have hkeeps := hx s hinvariant
  generalize x.run s = left at houtcomes hkeeps ⊢
  generalize y.run t = right at houtcomes ⊢
  cases houtcomes with
  | ok hresult halike' =>
    obtain ⟨hstores', hstream', hread', hlog'⟩ := halike'
    exact .ok ⟨hresult, hkeeps.2⟩ ⟨⟨hstores', hkeeps.1⟩, hstream', hread', hlog'⟩
  | error halike' =>
    obtain ⟨hstores', hstream', hread', hlog'⟩ := halike'
    exact .error ⟨⟨hstores', hkeeps⟩, hstream', hread', hlog'⟩
  | excused he => exact .excused he

/-! ### Repetition and failure -/

/-- Putting outputs together in lockstep, if related outputs can be put together. -/
theorem concat {outputs : Text → Text → Prop} (hnil : outputs [] [])
    (happend : ∀ {t t' u u' : Text}, outputs t t' → outputs u u' → outputs (t ++ u) (t' ++ u'))
    {items : α → β → Prop} {output : α → SessionM Text} {output' : β → SessionM Text}
    {as : List α} {bs : List β} (hitems : List.Forall₂ items as bs)
    (h : ∀ a ∈ as, ∀ b, items a b → Lockstep stores excused outputs (output a) (output' b)) :
    Lockstep stores excused outputs (SessionM.concat output as)
      (SessionM.concat output' bs) := by
  induction hitems with
  | nil => exact pure hnil
  | @cons a b as bs hab hrest ih =>
    have hfirst := h a List.mem_cons_self b hab
    have hothers := ih fun a' ha' => h a' (List.mem_cons_of_mem a ha')
    refine hfirst.bind fun t t' ht => ?_
    exact hothers.bind fun u u' hu => pure (happend ht hu)

theorem run_tryCatch (x : SessionM α) (handle : Failure → SessionM α) (s : Session) :
    (MonadExcept.tryCatch x handle).run s =
      match x.run s with
      | .ok a s => .ok a s
      | .error e s => (handle e).run s := by
  show EStateM.tryCatch x handle s = _
  have hrun : x.run s = x s := rfl
  delta EStateM.tryCatch
  rw [hrun]
  cases x s <;> rfl

/-- Catching failures keeps operations in lockstep, if an excused failure is passed on. -/
theorem tryCatch {results : α → β → Prop} {x : SessionM α} {y : SessionM β}
    (hx : Lockstep stores excused results x y) {handle : Failure → SessionM α}
    {handle' : Failure → SessionM β}
    (hhandle : ∀ e, Lockstep stores excused results (handle e) (handle' e))
    (hexcused : ∀ e, excused e → handle e = MonadExcept.throw e) :
    Lockstep stores excused results (MonadExcept.tryCatch x handle)
      (MonadExcept.tryCatch y handle') := by
  intro s t halike
  have houtcomes := hx s t halike
  rw [run_tryCatch, run_tryCatch]
  generalize x.run s = left at houtcomes ⊢
  generalize y.run t = right at houtcomes ⊢
  cases houtcomes with
  | ok hresult halike' => exact .ok hresult halike'
  | error halike' => exact hhandle _ _ _ halike'
  | @excused e s r he =>
    show Outcomes stores excused results ((handle e).run s) _
    rw [hexcused e he]
    exact .excused he

/-- One by one, operations in lockstep come to outcomes that are alike after the same outputs,
unless the left ones are stopped by an excused failure. -/
theorem outputs {output output' : α → SessionM Text} {as : List α}
    (h : ∀ a ∈ as, Lockstep stores excused Eq (output a) (output' a)) {s t : Session}
    (halike : s.Alike stores t) :
    Outcomes stores excused Eq (SessionM.outputs output as s).2 (SessionM.outputs output' as t).2 ∧
      ((∀ e s', (SessionM.outputs output as s).2 = .error e s' → ¬ excused e) →
        (SessionM.outputs output as s).1 = (SessionM.outputs output' as t).1) := by
  induction as generalizing s t with
  | nil => exact ⟨.ok rfl halike, fun _ => rfl⟩
  | cons a as ih =>
    have houtcomes := h a List.mem_cons_self s t halike
    rw [SessionM.outputs, SessionM.outputs]
    generalize (output a).run s = left at houtcomes ⊢
    generalize (output' a).run t = right at houtcomes ⊢
    cases houtcomes with
    | @ok first _ s' t' hresult halike' =>
      subst hresult
      obtain ⟨hfinish, htexts⟩ := ih (fun b hb => h b (List.mem_cons_of_mem a hb)) halike'
      exact ⟨hfinish, fun hnot => congrArg (first :: ·) (htexts hnot)⟩
    | error halike' => exact ⟨.error halike', fun _ => rfl⟩
    | excused he => exact ⟨.excused he, fun hnot => absurd he (hnot _ _ rfl)⟩

end Lockstep

end SessionM

end Stencil
