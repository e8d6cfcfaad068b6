import Mathlib.Data.List.Dedup
import Mathlib.Data.List.DropRight
import Stencil.Proofs.Engine.Invariant
import Stencil.Proofs.Engine.Steps
import Stencil.Proofs.Template

/-!
# The cache keeps what was used last

The cache of an engine is meant to hold what was compiled last, as far as there is room.  This is
said here without a word on how it is kept: the keys in the cache are the last few of the distinct
keys that have been compiled successfully since a helper was registered (`Engine.cache_transcript`).

What has been compiled is read off the transcript of a session, that is, off the events that an
engine logs while it answers.  A compilation that succeeds logs an event with its key, whether it
is answered from the cache or not, and one that fails logs none
(`Environment.compileKey_compilations`).  That also counts the partials that are compiled while a
template is rendered.

The invariant that carries the proof relates the keys in the cache to all the keys that have been
compiled so far (`Session.IsRecent`).  One use changes both sides alike, because what has been
dropped from the cache before is not missed later (`rtake_dedup_concat`).
-/

set_option autoImplicit false

namespace Stencil

open SessionM (Keeps)

/-! ## The last few distinct elements of a list -/

section Lists

variable {κ : Type}

theorem rtake_append_of_le {n : Nat} (xs : List κ) {ys : List κ} (h : n ≤ ys.length) :
    (xs ++ ys).rtake n = ys.rtake n := by
  have hlength : (xs ++ ys).length - n = xs.length + (ys.length - n) := by
    rw [List.length_append]
    omega
  rw [List.rtake, List.rtake, hlength, List.drop_length_add_append]

variable [DecidableEq κ]

/-- Used once more, an element becomes the last of the distinct ones. -/
theorem dedup_concat (l : List κ) (k : κ) :
    (l ++ [k]).dedup = l.dedup.filter (· ≠ k) ++ [k] := by
  induction l with
  | nil => simp
  | cons a l ih =>
    rw [List.cons_append]
    by_cases hmem : a ∈ l
    · rw [List.dedup_cons_of_mem (List.mem_append_left _ hmem), List.dedup_cons_of_mem hmem, ih]
    · rw [List.dedup_cons_of_notMem hmem]
      by_cases hk : a = k
      · rw [List.dedup_cons_of_mem (by simp [hk]), List.filter_cons_of_neg (by simp [hk]), ih]
      · rw [List.dedup_cons_of_notMem (by simp [hmem, hk]), List.filter_cons_of_pos (by simp [hk]),
          List.cons_append, ih]

/-- **What has been dropped is not missed**: to know the last `n` distinct elements after one more
use, it is enough to know the last `n` before. -/
theorem rtake_dedup_concat (n : Nat) (l : List κ) (k : κ) :
    (l ++ [k]).dedup.rtake n = ((l.dedup.rtake n).filter (· ≠ k) ++ [k]).rtake n := by
  have hnodup : (l.dedup.rtake n).Nodup := (List.nodup_dedup l).sublist (List.drop_sublist _ _)
  have hfilter : (l.dedup.rtake n).length - 1 ≤
      ((l.dedup.rtake n).filter (· ≠ k)).length := by
    have herase : (l.dedup.rtake n).filter (· ≠ k) = (l.dedup.rtake n).erase k := by
      rw [hnodup.erase_eq_filter]
      exact List.filter_congr fun x _ => by by_cases hx : x = k <;> simp [hx]
    rw [herase]
    exact List.le_length_erase
  have hsplit : l.dedup = l.dedup.rdrop n ++ l.dedup.rtake n :=
    (List.take_append_drop _ _).symm
  rw [dedup_concat]
  by_cases hfew : l.dedup.length ≤ n
  · have hall : l.dedup.rtake n = l.dedup := by
      rw [List.rtake, Nat.sub_eq_zero_of_le hfew, List.drop_zero]
    rw [hall]
  · have hlength : (l.dedup.rtake n).length = n := by
      rw [List.rtake, List.length_drop]
      omega
    conv_lhs => rw [hsplit, List.filter_append, List.append_assoc]
    refine rtake_append_of_le _ ?_
    rw [List.length_append, List.length_singleton]
    omega

end Lists

/-! ## The keys of a cache -/

namespace Cache

variable {κ ν : Type}

theorem keys_trim (c : Cache κ ν) (capacity : Nat) :
    (c.trim capacity).keys = c.keys.rtake capacity := by
  simp only [keys, trim, List.rtake, List.map_drop, List.length_map]

variable [DecidableEq κ]

theorem keys_use (c : Cache κ ν) (key : κ) (value : ν) :
    (c.use key value).keys = c.keys.filter (· ≠ key) ++ [key] := by
  simp [keys, use, erase, List.filter_map, Function.comp_def]

theorem mem_keys_of_get? {c : Cache κ ν} {key : κ} {value : ν} (h : c.get? key = some value) :
    key ∈ c.keys :=
  List.mem_map.2 ⟨_, mem_of_get? h, rfl⟩

end Cache

/-! ## What has been compiled -/

/-- The key that has been compiled successfully, if an event reports that; it may have been
answered from the cache. -/
def Event.compiledKey? : Event → Option CacheKey
  | .compiled key _ _ => some key
  | .cacheHit key => some key
  | _ => none

theorem Event.compiledKey?_eq_none {e : Event} (h : e.isOfCompiling = false) :
    e.compiledKey? = none := by
  cases e with
  | compiled key helpers partials => exact absurd h (by simp [isOfCompiling, source])
  | cacheHit key => exact absurd h (by simp [isOfCompiling, source])
  | _ => rfl

/-- The keys that have been compiled successfully, as the log reports them, the latest last. -/
def Session.compilations (s : Session) : List CacheKey :=
  s.log.reverse.filterMap Event.compiledKey?

theorem Session.compilations_of_log {s t : Session} (events : List Event)
    (h : t.log = events.reverse ++ s.log) :
    t.compilations = s.compilations ++ events.filterMap Event.compiledKey? := by
  simp only [compilations, h, List.reverse_append, List.reverse_reverse, List.filterMap_append]

theorem filterMap_compiledKey?_tokens (tokens : List Token) :
    (Token.events tokens).filterMap Event.compiledKey? = [] := by
  rw [List.filterMap_eq_nil_iff]
  intro e he
  obtain ⟨token, -, he⟩ := List.mem_filterMap.1 he
  split at he
  · obtain rfl := Option.some.inj he
    rfl
  · exact absurd he (by simp)

/-- Compiling a key logs an event with the key if it succeeds, and none if it fails. -/
theorem CacheKey.filterMap_compiledKey?_compilation (known : KnownHelpers) (key : CacheKey) :
    (key.compilation known).events.filterMap Event.compiledKey? =
      match (key.compilation known).result with
      | .ok _ => [key]
      | .error _ => [] := by
  have htokens := filterMap_compiledKey?_tokens (scan key.options.delimiters key.source).tokens
  rw [compilation, Template.compile]
  dsimp only
  cases (scan key.options.delimiters key.source).finish with
  | error e => exact htokens
  | ok _ =>
    dsimp only
    cases Node.ofTokens (scan key.options.delimiters key.source).tokens with
    | error e =>
      simp only [List.filterMap_append, htokens]
      rfl
    | ok nodes =>
      dsimp only
      cases Template.ofNodes known key.options key.name key.source nodes with
      | error e =>
        simp only [List.filterMap_append, htokens]
        rfl
      | ok t =>
        simp only [List.filterMap_append, htokens]
        rfl

namespace Environment

/-- **A compilation is logged with its key if it succeeds**, and not at all if it fails. -/
theorem compileKey_compilations (env : Environment) (key : CacheKey) (s : Session) :
    match (env.compileKey key).run s with
    | .ok _ t => t.compilations = s.compilations ++ [key]
    | .error _ t => t.compilations = s.compilations := by
  have hevents := key.filterMap_compiledKey?_compilation env.helpers.known
  have hcompiling := env.compiling_compileKey key s
  generalize (env.compileKey key).run s = outcome at hcompiling ⊢
  cases hcompiling with
  | cached hget => exact Session.compilations_of_log [.cacheHit key] rfl
  | refused hresult =>
    rw [hresult] at hevents
    dsimp only
    rw [Session.compilations_of_log (s := s) _ rfl, hevents, List.append_nil]
  | @compiled template store dropped hresult hpartials hlocked hcache =>
    rw [hresult] at hevents
    have hdropped : (dropped.map fun k => Event.evicted k.name).filterMap
        Event.compiledKey? = [] := by simp [Event.compiledKey?]
    dsimp only
    rw [Session.compilations_of_log (s := s) ((key.compilation env.helpers.known).events ++
      dropped.map fun k => Event.evicted k.name) (by simp), List.filterMap_append, hevents,
      hdropped, List.append_nil]

/-- **The key of a compilation becomes the one that was used last.**  One that fails leaves the
cache as it is. -/
theorem compileKey_keys (env : Environment) (key : CacheKey) {s : Session}
    (hsize : s.store.cache.keys.length ≤ env.config.cacheSize) :
    match (env.compileKey key).run s with
    | .ok _ t => t.store.cache.keys =
        (s.store.cache.keys.filter (· ≠ key) ++ [key]).rtake env.config.cacheSize
    | .error _ t => t.store.cache.keys = s.store.cache.keys := by
  have hcompiling := env.compiling_compileKey key s
  generalize (env.compileKey key).run s = outcome at hcompiling ⊢
  cases hcompiling with
  | cached hget =>
    -- the key leaves its old place, so the cache does not grow
    have hmem : key ∈ s.store.cache.keys := Cache.mem_keys_of_get? hget
    have hlength : (s.store.cache.keys.filter (· ≠ key) ++ [key]).length ≤
        env.config.cacheSize := by
      refine Nat.le_trans ?_ hsize
      rw [List.length_append, List.length_singleton]
      exact List.length_filter_lt_length_iff_exists.2 ⟨key, hmem, by simp⟩
    dsimp only
    rw [Cache.keys_use, List.rtake, Nat.sub_eq_zero_of_le hlength, List.drop_zero]
  | refused hresult => rfl
  | compiled hresult hpartials hlocked hcache =>
    dsimp only
    rw [hcache]
    split
    · rename_i hzero
      rw [hzero, Nat.le_zero, List.length_eq_zero_iff] at hsize
      rw [hzero, hsize, List.rtake_zero]
    · rw [Cache.keys_trim, Cache.keys_use]

end Environment

/-! ## The invariant -/

/-- The keys in the cache are the last few of the distinct keys that have been compiled: those that
had been before, and those that the log reports. -/
def Session.IsRecent (size : Nat) (before : List CacheKey) (s : Session) : Prop :=
  s.store.cache.keys = (before ++ s.compilations).dedup.rtake size

theorem Session.IsRecent.length_le {size : Nat} {before : List CacheKey} {s : Session}
    (h : s.IsRecent size before) : s.store.cache.keys.length ≤ size := by
  rw [h, List.rtake, List.length_drop]
  omega

/-- Events that have nothing to do with compiling report no compilation. -/
theorem Session.IsRecent.record {size : Nat} {before : List CacheKey} {s : Session}
    {events : List Event} (hevents : ∀ e ∈ events, e.isOfCompiling = false)
    (h : s.IsRecent size before) :
    Session.IsRecent size before { s with log := events.reverse ++ s.log } := by
  have hnone : events.filterMap Event.compiledKey? = [] :=
    List.filterMap_eq_nil_iff.2 fun e he => Event.compiledKey?_eq_none (hevents e he)
  rw [IsRecent, compilations_of_log (s := s) events rfl, hnone, List.append_nil]
  exact h

namespace Environment

variable (env : Environment) (before : List CacheKey)

/-- Compiling keeps the cache recent. -/
theorem compileKey_isRecent (key : CacheKey) :
    (env.compileKey key).Preserves (Session.IsRecent env.config.cacheSize before) := by
  intro s hs
  have hcompilations := env.compileKey_compilations key s
  have hkeys := env.compileKey_keys key hs.length_le
  generalize (env.compileKey key).run s = outcome at hcompilations hkeys ⊢
  cases outcome with
  | ok h t =>
    refine ⟨?_, trivial⟩
    rw [Session.IsRecent, hkeys, hs, hcompilations, ← List.append_assoc, rtake_dedup_concat]
  | error e t =>
    show t.store.cache.keys = _
    rw [hkeys, hs, hcompilations]

/-- **Nothing that is done in an environment breaks the invariant.** -/
theorem maintains_isRecent : env.Maintains (Session.IsRecent env.config.cacheSize before) where
  record _ _ hevents hs := hs.record hevents
  streams _ _ _ hs := hs
  partials _ _ hs := hs
  compileKey := env.compileKey_isRecent before
  partialNamed name := by
    have hload (loader : Loader) : (env.loadPartial loader name).Preserves
        (Session.IsRecent env.config.cacheSize before) :=
      loadPartial_preserves (fun _ _ hevents hs => hs.record hevents) (fun _ _ hs => hs)
        (env.compileKey_isRecent before) loader name
    exact partialNamed_preserves hload (fun _ hs => hs) fun _ hs => hs

end Environment

/-! ## Transcripts -/

/-- A request, the answer to it, and what has been logged meanwhile. -/
structure Exchange where
  /-- The request. -/
  request : Request
  /-- The answer. -/
  answer : Answer
  /-- The events, in their order. -/
  events : List Event

namespace Exchange

/-- Whether a helper has been registered, successfully. -/
def registersHelper (x : Exchange) : Bool :=
  match x.request, x.answer with
  | .registerHelper .., .done => true
  | _, _ => false

/-- The keys that have been compiled successfully meanwhile. -/
def compilations (x : Exchange) : List CacheKey :=
  x.events.filterMap Event.compiledKey?

/-- The keys that have been compiled successfully since a helper was registered the last time, the
latest last. -/
def recentCompilations (history : List Exchange) : List CacheKey :=
  (history.rtakeWhile fun x => !x.registersHelper).flatMap compilations

theorem recentCompilations_concat (history : List Exchange) (x : Exchange) :
    recentCompilations (history ++ [x]) =
      if x.registersHelper then [] else recentCompilations history ++ x.compilations := by
  rw [recentCompilations, recentCompilations, List.rtakeWhile_concat]
  cases x.registersHelper with
  | true => rfl
  | false => simp

end Exchange

namespace Engine

/-- Makes requests one after another and takes the log after each of them. -/
def transcript (e : Engine) : List Request → List Exchange × Engine
  | [] => ([], e)
  | q :: qs =>
    let (answer, e) := e.serve q
    let (events, e) := e.takeLog
    let (history, e) := e.transcript qs
    (⟨q, answer, events⟩ :: history, e)

/-- What holds of an engine after a history, when its log has been taken. -/
structure RemembersRecent (size : Nat) (history : List Exchange) (e : Engine) : Prop where
  /-- The log has been taken. -/
  log : e.session.log = []
  /-- The cache has the size that was chosen. -/
  cacheSize : e.env.config.cacheSize = size
  /-- The keys in the cache are those that were compiled last. -/
  recent : e.session.IsRecent size (Exchange.recentCompilations history)
  /-- They belong to the templates that they are compiled to. -/
  coherent : e.session.store.Coherent e.env.helpers.known

variable {size : Nat} {history : List Exchange} {e : Engine}

/-- A request that does not register a helper adds what has been compiled meanwhile. -/
theorem RemembersRecent.isRecent_takeLog (h : e.RemembersRecent size history) {q : Request}
    (hq : ∀ name helper allowReserved, q ≠ .registerHelper name helper allowReserved) :
    let events := (e.serve q).2.takeLog.1
    (e.serve q).2.takeLog.2.session.IsRecent size
      (Exchange.recentCompilations (history ++ [⟨q, (e.serve q).1, events⟩])) := by
  intro events
  have hregisters : Exchange.registersHelper ⟨q, (e.serve q).1, events⟩ = false := by
    cases q with
    | registerHelper name helper allowReserved => exact absurd rfl (hq name helper allowReserved)
    | _ => rfl
  have hmaintains := e.env.maintains_isRecent (Exchange.recentCompilations history)
  rw [h.cacheSize] at hmaintains
  have hserved : (e.serve q).2.session.store.cache.keys = _ :=
    serve_keeps hmaintains h.recent hq
  rw [Exchange.recentCompilations_concat, hregisters, Session.IsRecent]
  show (e.serve q).2.session.store.cache.keys = _
  rw [hserved]
  show _ = (_ ++ (e.serve q).2.session.compilations ++ []).dedup.rtake size
  rw [List.append_nil]

/-- Registering a helper empties the cache if it succeeds, and leaves it if it fails. -/
theorem RemembersRecent.isRecent_registerHelper (h : e.RemembersRecent size history) (name : Value)
    (helper : Helper) (allowReserved : Bool) :
    let q : Request := .registerHelper name helper allowReserved
    let events := (e.serve q).2.takeLog.1
    (e.serve q).2.takeLog.2.session.IsRecent size
      (Exchange.recentCompilations (history ++ [⟨q, (e.serve q).1, events⟩])) := by
  intro q events
  cases hregister : e.env.helpers.register name helper allowReserved with
  | error error =>
    have hnothing : (⟨q, (e.serve q).1, events⟩ : Exchange).compilations = [] := by
      simp only [events, q, serve_registerHelper_error hregister, Engine.takeLog, h.log]
      rfl
    have hfailed : (⟨q, (e.serve q).1, events⟩ : Exchange).registersHelper = false := by
      simp only [q, serve_registerHelper_error hregister]
      rfl
    have hrecent := h.recent
    rw [Session.IsRecent, Session.compilations, h.log] at hrecent
    rw [Exchange.recentCompilations_concat, hfailed, hnothing, serve_registerHelper_error hregister]
    show e.session.store.cache.keys = _
    rw [hrecent]
    simp [Session.compilations, Engine.takeLog]
  | ok registered =>
    have hdone : (⟨q, (e.serve q).1, events⟩ : Exchange).registersHelper = true := by
      simp only [q, serve_registerHelper_ok hregister]
      rfl
    rw [Exchange.recentCompilations_concat, hdone, serve_registerHelper_ok hregister]
    show [] = _
    simp [Session.compilations, Engine.takeLog]

/-- **A request and what follows from it for the cache**: what was compiled last is remembered
again when its log has been taken. -/
theorem RemembersRecent.serve (h : e.RemembersRecent size history) (q : Request) :
    (e.serve q).2.takeLog.2.RemembersRecent size
      (history ++ [⟨q, (e.serve q).1, (e.serve q).2.takeLog.1⟩]) := by
  have hsize := (congrArg EngineConfig.cacheSize (e.serve_config q)).trans h.cacheSize
  refine ⟨rfl, hsize, ?_, coherent_serve h.coherent q⟩
  cases q with
  | registerHelper name helper allowReserved =>
    exact h.isRecent_registerHelper name helper allowReserved
  | _ => exact h.isRecent_takeLog nofun

/-- Whatever is asked for, an engine goes on remembering what was compiled last. -/
theorem RemembersRecent.transcript (h : e.RemembersRecent size history) (requests : List Request) :
    (e.transcript requests).2.RemembersRecent size
      (history ++ (e.transcript requests).1) := by
  induction requests generalizing e history with
  | nil =>
    rw [Engine.transcript, List.append_nil]
    exact h
  | cons q requests ih =>
    have hrest := ih (h.serve q)
    rw [List.append_assoc] at hrest
    exact hrest

/-- **The cache holds exactly what was used last.**  Whatever a new engine is asked for, the keys in
its cache, the least recently used first, are the last `cacheSize` of the distinct keys that have
been compiled successfully since a helper was registered, by a request or by a partial tag; and
every key belongs to a template that bears its name, source and options.  What has been compiled is
read off the log, where a compilation leaves its key if and only if it succeeds. -/
theorem cache_transcript (config : EngineConfig) (loader : Option Loader)
    (escape : Option Escaper) (tree : FileTree) (next : Nat) (requests : List Request) :
    let session := ((create config loader escape tree).withStreams next).transcript requests
    let cache := session.2.session.store.cache
    cache.keys = (Exchange.recentCompilations session.1).dedup.rtake config.cacheSize ∧
      (∀ entry ∈ cache.entries, entry.2.template.name = entry.1.name ∧
        entry.2.template.source = entry.1.source ∧
        entry.2.template.options = entry.1.options) ∧
      ∀ (env : Environment) (key : CacheKey) (s : Session),
        match (env.compileKey key).run s with
        | .ok _ t => t.compilations = s.compilations ++ [key]
        | .error _ t => t.compilations = s.compilations := by
  intro session cache
  have hcreate : ((create config loader escape tree).withStreams next).RemembersRecent
      config.cacheSize [] :=
    ⟨rfl, rfl, (List.rtake_nil _).symm, Store.coherent_of_cache_eq_empty rfl _⟩
  have hsession := hcreate.transcript requests
  refine ⟨?_, fun entry hentry => ?_, Environment.compileKey_compilations⟩
  · have hrecent := hsession.recent
    rw [Session.IsRecent, Session.compilations, hsession.log, List.reverse_nil,
      List.filterMap_nil, List.append_nil] at hrecent
    exact hrecent
  · exact Template.key_of_compile (hsession.coherent entry hentry)

/-- With room for two, the partial that a rendering loads and the rendered source push out what was
compiled before, and compiling the partial's source once more moves it to the end. -/
theorem cache_transcript_partial :
    let config : EngineConfig := { EngineConfig.standard with cacheSize := 2 }
    let loader : Loader := .map [(['p'], ['x'])]
    let requests : List Request :=
      [.compile ['a'] ['a'] none, .renderSource "\x7b\x7b>p\x7d\x7d".toList .null,
        .compile ['p'] ['x'] none, .compile ['q'] "\x7b\x7b".toList none]
    let session := ((create config (some loader) none { directory := .parse ['/'] }).withStreams
      0).transcript requests
    session.2.session.store.cache.keys.map (·.source) = ["\x7b\x7b>p\x7d\x7d".toList, ['x']] ∧
      session.2.session.store.cache.keys =
        (Exchange.recentCompilations session.1).dedup.rtake 2 := by
  intro config loader requests session
  have hcache := cache_transcript config (some loader) none { directory := .parse ['/'] } 0 requests
  exact ⟨by decide +kernel, hcache.1⟩

end Engine

end Stencil
