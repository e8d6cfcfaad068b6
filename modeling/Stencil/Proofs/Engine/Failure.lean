import Stencil.Proofs.Engine.Invariant
import Stencil.Proofs.Engine.Steps

/-!
# What fails leaves nothing behind

A request that is not about rendering does all or nothing: if it fails, the engine remembers what it
remembered before, in the same order, and holds the same locks.  Only the log is longer.  So it
makes no difference for anything later that the request was made (`Engine.serve_of_failed`).

Each operation looks things up before it changes anything, and whatever can go wrong does so before
the first change (`SessionM.FailsCleanly`).  The exception is a partial that is loaded, whose name
is locked in between.  Giving the lock back restores the locks only if the name was not locked
before, and that is so because between requests no name is locked at all
(`Engine.IsReachable.locked_eq_nil`).
-/

set_option autoImplicit false

namespace Stencil

open SessionM (Keeps)

/-- A request that does not render. -/
def Request.RendersNothing : Request → Prop
  | .registerHelper .. | .registerPartial .. | .registerPartialSource .. | .define .. => True
  | .compile .. | .template _ => True
  | .render .. | .renderSource .. | .renderNodes .. => False

/-! ## Failing without a trace -/

namespace SessionM

variable {α β : Type}

/-- If an operation fails in a session, it leaves the session as it was, but for the log. -/
def FailsCleanly (x : SessionM α) (s : Session) : Prop :=
  ∀ e t, x.run s = .error e t → ∃ log, t = { s with log }

namespace FailsCleanly

variable {x : SessionM α} {s : Session}

theorem pure (a : α) : FailsCleanly (Pure.pure a) s :=
  fun _ _ hrun => nomatch hrun

theorem throw (e : Failure) : FailsCleanly (MonadExcept.throw e : SessionM α) s := by
  intro e' t hrun
  obtain ⟨-, rfl⟩ := EStateM.Result.error.inj hrun
  exact ⟨s.log, rfl⟩

/-- What is logged before does not count. -/
theorem record_bind {events : List Event}
    (h : x.FailsCleanly { s with log := events.reverse ++ s.log }) :
    (do record events; x : SessionM α).FailsCleanly s := by
  intro e t hrun
  obtain ⟨log, rfl⟩ := h e t hrun
  exact ⟨log, rfl⟩

/-- What goes on without failing does not spoil it. -/
theorem bind_of_ok (hx : x.FailsCleanly s) {f : α → SessionM β}
    (hf : ∀ a t, ∃ b u, (f a).run t = .ok b u) : (x >>= f).FailsCleanly s := by
  intro e t hrun
  rw [EStateM.run_bind] at hrun
  cases houtcome : x.run s with
  | ok a u =>
    rw [houtcome] at hrun
    obtain ⟨b, v, hok⟩ := hf a u
    exact nomatch hok.symm.trans hrun
  | error e' u =>
    rw [houtcome] at hrun
    obtain ⟨rfl, rfl⟩ := EStateM.Result.error.inj hrun
    exact hx _ _ houtcome

theorem registeredOr {name : Text} {otherwise : SessionM Handle} (h : otherwise.FailsCleanly s) :
    (SessionM.registeredOr name otherwise).FailsCleanly s := by
  intro e t hrun
  rw [run_registeredOr] at hrun
  cases hget : Table.get? s.store.partials name with
  | some k => exact nomatch (hget ▸ hrun)
  | none =>
    rw [hget] at hrun
    exact h e t hrun

/-- A lock is given back when something fails under it. -/
theorem locking {name : Text} (hname : name ∉ s.store.locked)
    (h : x.FailsCleanly { s with store := s.store.lock name }) :
    (SessionM.locking name x).FailsCleanly s := by
  have hunlock : (s.store.lock name).unlock name = s.store := by
    simp [Store.lock, Store.unlock, List.insert_of_not_mem hname]
  intro e t hrun
  rw [run_locking] at hrun
  cases houtcome : x.run { s with store := s.store.lock name } with
  | ok a u => exact nomatch (houtcome ▸ hrun)
  | error e' u =>
    rw [houtcome] at hrun
    obtain ⟨rfl, rfl⟩ := EStateM.Result.error.inj hrun
    obtain ⟨log, rfl⟩ := h _ _ houtcome
    exact ⟨log, by rw [hunlock]⟩

end FailsCleanly

end SessionM

open SessionM (FailsCleanly)

namespace Environment

variable (env : Environment)

theorem compileKey_failsCleanly (key : CacheKey) (s : Session) :
    (env.compileKey key).FailsCleanly s := by
  intro e t hrun
  have hcompiling := env.compiling_compileKey key s
  rw [hrun] at hcompiling
  cases hcompiling with
  | refused hresult => exact ⟨_, rfl⟩

theorem compile_failsCleanly (name source : Text) (s : Session) :
    (env.compile name source).FailsCleanly s := by
  rw [compile]
  cases env.config.compileOptions with
  | error e => exact .throw _
  | ok options => exact env.compileKey_failsCleanly ⟨name, source, options⟩ s

/-- A partial that cannot be loaded is not registered. -/
theorem loadPartial_failsCleanly (loader : Loader) (name : Text) (s : Session) :
    (env.loadPartial loader name).FailsCleanly s := by
  rw [loadPartial]
  cases loader.fault? name with
  | some e => exact .throw _
  | none =>
  generalize loader.load name = found
  obtain ⟨events, source?⟩ := found
  refine .record_bind ?_
  cases source? with
  | none => exact .throw _
  | some source =>
    refine .record_bind ?_
    refine (env.compile_failsCleanly name source _).bind_of_ok fun h t => ?_
    exact ⟨h, { t with store := { t.store with
      partials := Table.insert t.store.partials name h } }, rfl⟩

/-- If no name is locked, looking up a partial in vain leaves nothing behind. -/
theorem partialNamed_failsCleanly (name : Text) {s : Session} (hs : s.store.locked = []) :
    (env.partialNamed name).FailsCleanly s := by
  rw [partialNamed]
  refine .registeredOr ?_
  cases env.loader with
  | none => exact .throw _
  | some loader =>
    refine .locking (by simp [hs]) (.registeredOr ?_)
    exact env.loadPartial_failsCleanly loader name _

end Environment

/-! ## Locks -/

namespace Environment

variable (env : Environment)

theorem compileKey_keeps_locked (locked : List Text) (key : CacheKey) :
    (env.compileKey key).Preserves fun s => s.store.locked = locked := by
  intro s hs
  have hcompiling := env.compiling_compileKey key s
  generalize (env.compileKey key).run s = outcome at hcompiling ⊢
  cases hcompiling with
  | cached hget => exact ⟨hs, trivial⟩
  | refused hresult => exact hs
  | compiled hresult hpartials hlocked hcache => exact ⟨hlocked.trans hs, trivial⟩

/-- **Every lock is given back**: if no name is locked, then none is afterwards. -/
theorem maintains_unlocked : env.Maintains fun s => s.store.locked = [] where
  record _ _ _ hs := hs
  streams _ _ _ hs := hs
  partials _ _ hs := hs
  compileKey := env.compileKey_keeps_locked []
  partialNamed name := by
    -- while the partial is loaded, its name is the only one that is locked
    have hload (loader : Loader) : (env.loadPartial loader name).Preserves fun s =>
        s.store.locked = [name] :=
      loadPartial_preserves (fun _ _ _ hs => hs) (fun _ _ hs => hs)
        (env.compileKey_keeps_locked [name]) loader name
    refine partialNamed_preserves hload (fun s hs => ?_) fun s hs => ?_
    · simp [Store.lock, hs]
    · simp [Store.unlock, hs]

end Environment

namespace Engine

/-- Between requests no name is locked. -/
theorem IsReachable.locked_eq_nil {e : Engine} (h : e.IsReachable) :
    e.session.store.locked = [] := by
  refine IsReachable.induction (fun _ _ _ _ _ => rfl) (fun e q he => ?_) h
  cases q with
  | registerHelper name helper allowReserved =>
    cases hregister : e.env.helpers.register name helper allowReserved with
    | error error =>
      rw [serve_registerHelper_error hregister]
      exact he
    | ok registered =>
      rw [serve_registerHelper_ok hregister]
      exact he
  | _ => exact serve_keeps e.env.maintains_unlocked he nofun

/-! ## Requests -/

variable {α : Type} {e : Engine}

/-- What fails without a trace leaves an engine that differs in its log only. -/
theorem takeLog_of_perform_failed {act : SessionM α} (hact : act.FailsCleanly e.session)
    {wrap : α → Answer} (hwrap : ∀ a failure, wrap a ≠ .failed failure) {failure : Failure}
    (hfailed : (Answer.ofResult wrap (e.perform act)).1 = .failed failure) :
    (Answer.ofResult wrap (e.perform act)).2.takeLog.2 = e.takeLog.2 := by
  rw [perform] at hfailed ⊢
  cases hrun : act.run e.session with
  | ok a t =>
    rw [hrun] at hfailed
    exact absurd hfailed (hwrap a failure)
  | error e' t =>
    obtain ⟨log, rfl⟩ := hact e' t hrun
    rfl

theorem takeLog_of_registerPartialFrom_failed {name : Text} {compiled : SessionM Handle}
    (hcompiled : compiled.FailsCleanly e.session) {failure : Failure}
    (hfailed : (Answer.ofResult .template (e.registerPartialFrom name compiled)).1 =
      .failed failure) :
    (Answer.ofResult .template (e.registerPartialFrom name compiled)).2.takeLog.2 =
      e.takeLog.2 := by
  rw [registerPartialFrom] at hfailed ⊢
  split
  · rfl
  · rename_i hname
    rw [if_neg hname] at hfailed
    refine takeLog_of_perform_failed (hcompiled.bind_of_ok fun h t => ?_) (by simp) hfailed
    exact ⟨h, _, rfl⟩

/-- **A request that fails leaves nothing but its log behind**, if it is not about rendering and no
name is locked. -/
theorem takeLog_of_serve_failed (hlocked : e.session.store.locked = []) {q : Request}
    (hq : q.RendersNothing) {failure : Failure} (hfailed : (e.serve q).1 = .failed failure) :
    (e.serve q).2.takeLog.2 = e.takeLog.2 := by
  cases q with
  | registerHelper name helper allowReserved =>
    cases hregister : e.env.helpers.register name helper allowReserved with
    | error error => rw [serve_registerHelper_error hregister]
    | ok registered =>
      rw [serve_registerHelper_ok hregister] at hfailed
      exact nomatch hfailed
  | registerPartial name h => exact takeLog_of_registerPartialFrom_failed (.pure h) hfailed
  | registerPartialSource name source =>
    exact takeLog_of_registerPartialFrom_failed (e.env.compile_failsCleanly _ _ _) hfailed
  | define name source => exact nomatch hfailed
  | compile name source options =>
    cases options with
    | none =>
      exact takeLog_of_perform_failed (e.env.compile_failsCleanly _ _ _) (by simp) hfailed
    | some options =>
      exact takeLog_of_perform_failed (e.env.compileKey_failsCleanly _ _) (by simp)
        hfailed
  | template name =>
    exact takeLog_of_perform_failed (e.env.partialNamed_failsCleanly name hlocked)
      (by simp) hfailed
  | render h data => exact hq.elim
  | renderSource source data => exact hq.elim
  | renderNodes h data => exact hq.elim

/-- **A failed request changes nothing.**  If a reachable engine is asked to compile, to register a
helper or a partial, or to find a template, and fails, then its helpers and whatever else it works
with, the registered partials, the cache with its order and the locks are what they were before.
When the log has been taken, anything that is asked for later has the same outcome as if the request
had not been made. -/
theorem serve_of_failed (he : e.IsReachable) (s : Session) {q : Request} (hq : q.RendersNothing)
    {failure : Failure} (hfailed : ((e.inSession s).serve q).1 = .failed failure) :
    let after := ((e.inSession s).serve q).2
    after.env = e.env ∧ after.session.store = e.session.store ∧
      ∀ later : List Request,
        after.takeLog.2.serveAll later = (e.inSession s).takeLog.2.serveAll later := by
  have hsame := takeLog_of_serve_failed (e := e.inSession s) he.locked_eq_nil hq hfailed
  have henv := congrArg Engine.env hsame
  have hstore := congrArg (fun e : Engine => e.session.store) hsame
  exact ⟨henv, hstore, fun later => by rw [hsame]⟩

/-- The source that a loader has for a partial ends within a tag.  When the template is defined
anew, it is found as if nobody had asked for it before. -/
theorem serve_of_failed_malformed :
    let loader : Loader := .map [(['p'], "\x7b\x7bx".toList)]
    let e := (create .standard (some loader) none { directory := .parse ['/'] }).withStreams 0
    let q : Request := .template ['p']
    let later : List Request := [.define ['p'] "\x7b\x7bx\x7d\x7d".toList, .template ['p']]
    e.IsReachable ∧ q.RendersNothing ∧ ∃ failure, (e.serve q).1 = .failed failure ∧
      (e.serve q).2.session.store = e.session.store ∧
      (e.serve q).2.takeLog.2.serveAll later = e.takeLog.2.serveAll later := by
  intro loader e q later
  have hreachable : e.IsReachable := ⟨.standard, some loader, none, _, 0, [], rfl⟩
  have hfails : (match (e.serve q).1 with
      | .failed _ => true
      | _ => false) = true := by decide +kernel
  cases hanswer : (e.serve q).1 with
  | failed failure =>
    have hsame := serve_of_failed hreachable e.session (q := q) trivial hanswer
    exact ⟨hreachable, trivial, failure, rfl, hsame.2.1, hsame.2.2 later⟩
  | _ =>
    rw [hanswer] at hfails
    exact absurd hfails Bool.false_ne_true

end Engine

end Stencil
