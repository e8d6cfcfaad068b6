import Stencil.Engine.Environment
import Stencil.Proofs.Engine.Lockstep
import Stencil.Proofs.Except

/-!
# What a cached template owes to its key

A cache answers with a template that was compiled at another time.  That goes unnoticed because of
an invariant: every template in the cache is what its key would be compiled to now
(`Store.Coherent`).  There are three ways for a key to be compiled: it is found in the cache, it is
compiled afresh, or it cannot be compiled (`compiling_compileKey`).  Each of them keeps the
invariant, and whether the answer comes from the cache or not, it is the one a compiler without a
cache would give (`compileKey_spec`).

The only thing a compilation depends on besides its key is which helpers are known, so the invariant
names them.
-/

set_option autoImplicit false

namespace Stencil

/-! ## The entries of a cache -/

namespace Cache

variable {κ ν : Type}

theorem mem_trim {c : Cache κ ν} {capacity : Nat} {entry : κ × ν}
    (h : entry ∈ (c.trim capacity).entries) : entry ∈ c.entries :=
  List.mem_of_mem_drop h

variable [DecidableEq κ]

theorem mem_of_get? {c : Cache κ ν} {key : κ} {value : ν} (h : c.get? key = some value) :
    (key, value) ∈ c.entries := by
  obtain ⟨entry, hfind, rfl⟩ := Option.map_eq_some_iff.1 h
  have hkey := List.find?_some hfind
  rw [decide_eq_true_eq] at hkey
  rw [← hkey]
  exact List.mem_of_find?_eq_some hfind

theorem mem_use {c : Cache κ ν} {key : κ} {value : ν} {entry : κ × ν}
    (h : entry ∈ (c.use key value).entries) : entry ∈ c.entries ∨ entry = (key, value) := by
  rcases List.mem_append.1 h with h | h
  · exact .inl (List.mem_filter.1 h).1
  · exact .inr (List.mem_singleton.1 h)

end Cache

/-! ## The invariant -/

/-- What a key is compiled to when some helpers are known. -/
def CacheKey.compilation (known : KnownHelpers) (key : CacheKey) : Compilation :=
  Template.compile known key.options key.name key.source

/-- **A store is coherent** if every template in its cache is what its key is compiled to. -/
def Store.Coherent (known : KnownHelpers) (s : Store) : Prop :=
  ∀ entry ∈ s.cache.entries, (entry.1.compilation known).result = .ok entry.2.template

theorem Store.coherent_of_cache_eq_empty {s : Store} (h : s.cache = .empty)
    (known : KnownHelpers) : s.Coherent known := by
  intro entry hentry
  rw [h] at hentry
  exact absurd hentry List.not_mem_nil

theorem Store.Coherent.remember {known : KnownHelpers} {s : Store} (hs : s.Coherent known)
    {key : CacheKey} {h : Handle} (hkey : (key.compilation known).result = .ok h.template)
    {t : Store} (ht : ∀ entry ∈ t.cache.entries, entry ∈ s.cache.entries ∨ entry = (key, h)) :
    t.Coherent known := by
  intro entry hentry
  rcases ht entry hentry with hold | rfl
  · exact hs entry hold
  · exact hkey

/-! ## What compiling logs -/

/-- The log without what is only of interest when looking for a mistake. -/
def Session.notable (s : Session) : List Event :=
  s.log.filter Event.isNotable

theorem Token.events_isNotable {tokens : List Token} {e : Event}
    (h : e ∈ Token.events tokens) : e.isNotable = false := by
  obtain ⟨token, -, he⟩ := List.mem_filterMap.1 h
  split at he
  · obtain rfl := Option.some.inj he
    rfl
  · exact absurd he (by simp)

/-- Compiling logs nothing notable. -/
theorem Template.isNotable_of_mem_compile {known : KnownHelpers} {options : CompileOptions}
    {name source : Text} {e : Event}
    (h : e ∈ (Template.compile known options name source).events) : e.isNotable = false := by
  simp only [Template.compile] at h
  split at h
  · exact Token.events_isNotable h
  · split at h
    · rcases List.mem_append.1 h with h | h
      · exact Token.events_isNotable h
      · obtain rfl := List.mem_singleton.1 h
        rfl
    · split at h <;> simp only [List.mem_append, List.mem_singleton] at h
      · rcases h with (h | rfl) | rfl
        · exact Token.events_isNotable h
        · rfl
        · rfl
      · rcases h with ((h | rfl) | rfl) | rfl
        · exact Token.events_isNotable h
        · rfl
        · rfl
        · rfl

theorem filter_isNotable_append {events : List Event}
    (h : ∀ e ∈ events, e.isNotable = false) (log : List Event) :
    (events.reverse ++ log).filter Event.isNotable = log.filter Event.isNotable := by
  rw [List.filter_append, List.filter_eq_nil_iff.2, List.nil_append]
  intro e he
  rw [h e (List.mem_reverse.1 he)]
  decide

/-! ## Compiling -/

/-- What compiling leaves as it is: everything but the cache, which stays coherent. -/
structure Session.Compiles (known : KnownHelpers) (s t : Session) : Prop where
  /-- The registered partials stay. -/
  partials : t.store.partials = s.store.partials
  /-- The cache stays coherent. -/
  coherent : t.store.Coherent known
  /-- No stream is made. -/
  nextStream : t.nextStream = s.nextStream
  /-- No stream is read. -/
  itemsRead : t.itemsRead = s.itemsRead
  /-- Nothing notable is logged. -/
  notable : t.notable = s.notable

/-- What compiling a key in a session can come to. -/
inductive Environment.Compiling (env : Environment) (key : CacheKey) (s : Session) :
    EStateM.Result Failure Session Handle → Prop
  /-- The key is in the cache and becomes the one that was used last. -/
  | cached {h : Handle} (hget : s.store.cache.get? key = some h) :
      Compiling env key s (.ok h { s with
        store := { s.store with cache := s.store.cache.use key h }
        log := .cacheHit key :: s.log })
  /-- The source cannot be compiled. -/
  | refused {e : TemplateError}
      (hresult : (key.compilation env.helpers.known).result = .error e) :
      Compiling env key s (.error (.template e) { s with
        log := (key.compilation env.helpers.known).events.reverse ++ s.log })
  /-- The source is compiled.  If there is a cache, the new template enters it as the one that was
  used last, and the others are kept as far as there is room. -/
  | compiled {template : Template} {store : Store} {dropped : List CacheKey}
      (hresult : (key.compilation env.helpers.known).result = .ok template)
      (hpartials : store.partials = s.store.partials) (hlocked : store.locked = s.store.locked)
      (hcache : store.cache = if env.config.cacheSize = 0 then s.store.cache else
        (s.store.cache.use key ⟨s.store.nextSerial, template⟩).trim env.config.cacheSize) :
      Compiling env key s (.ok ⟨s.store.nextSerial, template⟩ { s with
        store
        log := (dropped.map fun k => Event.evicted k.name).reverse ++
          ((key.compilation env.helpers.known).events.reverse ++ s.log) })

namespace Environment

/-- **Compiling comes to nothing else.**  All that is known of compiling follows from this. -/
theorem compiling_compileKey (env : Environment) (key : CacheKey) (s : Session) :
    env.Compiling key s ((env.compileKey key).run s) := by
  cases hget : s.store.cache.get? key with
  | some h =>
    have hrun : (env.compileKey key).run s = .ok h { s with
        store := { s.store with cache := s.store.cache.use key h }
        log := .cacheHit key :: s.log } := by
      simp only [compileKey, EStateM.run_bind, EStateM.run_get, hget]
      rfl
    rw [hrun]
    exact .cached hget
  | none =>
    cases hresult : (key.compilation env.helpers.known).result with
    | error e =>
      have hrun : (env.compileKey key).run s = .error (.template e) { s with
          log := (key.compilation env.helpers.known).events.reverse ++ s.log } := by
        rw [CacheKey.compilation] at hresult
        simp only [compileKey, EStateM.run_bind, EStateM.run_get, hget, hresult]
        rfl
      rw [hrun]
      exact .refused hresult
    | ok template =>
      -- the store when the new template has been given its number
      let numbered : Store := { s.store with nextSerial := s.store.nextSerial + 1 }
      by_cases hsize : env.config.cacheSize = 0
      · have hrun : (env.compileKey key).run s = .ok ⟨s.store.nextSerial, template⟩ { s with
            store := numbered
            log := (([] : List CacheKey).map fun k => Event.evicted k.name).reverse ++
              ((key.compilation env.helpers.known).events.reverse ++ s.log) } := by
          rw [CacheKey.compilation] at hresult
          simp only [compileKey, EStateM.run_bind, EStateM.run_get, hget, hresult, if_pos hsize]
          rfl
        rw [hrun]
        exact .compiled hresult rfl rfl (if_pos hsize).symm
      · let kept := numbered.keep env.config.cacheSize key ⟨s.store.nextSerial, template⟩
        have hrun : (env.compileKey key).run s = .ok ⟨s.store.nextSerial, template⟩ { s with
            store := kept.1
            log := (kept.2.map fun k => Event.evicted k.name).reverse ++
              ((key.compilation env.helpers.known).events.reverse ++ s.log) } := by
          rw [CacheKey.compilation] at hresult
          simp only [compileKey, EStateM.run_bind, EStateM.run_get, hget, hresult, if_neg hsize]
          rfl
        rw [hrun]
        exact .compiled hresult rfl rfl (if_neg hsize).symm

/-- **Compiling is the same with a cache as without**: the answer is what the key is compiled to,
whatever the cache holds, and the cache stays coherent. -/
theorem compileKey_spec (env : Environment) (key : CacheKey) {s : Session}
    (hs : s.store.Coherent env.helpers.known) :
    match (env.compileKey key).run s with
    | .ok h t => (key.compilation env.helpers.known).result = .ok h.template ∧
        s.Compiles env.helpers.known t
    | .error e t => (∃ error, e = .template error ∧
        (key.compilation env.helpers.known).result = .error error) ∧
        s.Compiles env.helpers.known t := by
  have hevents : ((key.compilation env.helpers.known).events.reverse ++ s.log).filter
      Event.isNotable = s.log.filter Event.isNotable :=
    filter_isNotable_append (fun _ => Template.isNotable_of_mem_compile) s.log
  have hcompiling := env.compiling_compileKey key s
  generalize (env.compileKey key).run s = outcome at hcompiling ⊢
  cases hcompiling with
  | cached hget =>
    have hkey := hs _ (Cache.mem_of_get? hget)
    exact ⟨hkey, rfl, hs.remember hkey fun _ => Cache.mem_use, rfl, rfl, rfl⟩
  | refused hresult => exact ⟨⟨_, rfl, hresult⟩, rfl, hs, rfl, rfl, hevents⟩
  | @compiled template store dropped hresult hpartials hlocked hcache =>
    have hentries : ∀ entry ∈ store.cache.entries, entry ∈ s.store.cache.entries ∨
        entry = (key, ⟨s.store.nextSerial, template⟩) := by
      intro entry hentry
      rw [hcache] at hentry
      split at hentry
      · exact .inl hentry
      · exact Cache.mem_use (Cache.mem_trim hentry)
    refine ⟨hresult, hpartials, hs.remember hresult hentries, rfl, rfl, ?_⟩
    refine (filter_isNotable_append (fun e he => ?_) _).trans hevents
    obtain ⟨k, -, rfl⟩ := List.mem_map.1 he
    rfl

end Environment

/-! ## Two engines that compile -/

/-- A relation between stores that compiling keeps: the caches are coherent, and apart from that the
relation looks at the partials only. -/
structure Store.CompilingKeeps (known : KnownHelpers) (stores : Store → Store → Prop) : Prop where
  /-- The cache on the left is coherent. -/
  left : ∀ {s t}, stores s t → s.Coherent known
  /-- So is the one on the right. -/
  right : ∀ {s t}, stores s t → t.Coherent known
  /-- Other coherent caches do not matter. -/
  of_partials : ∀ {s t s' t' : Store}, stores s t → s'.partials = s.partials →
    t'.partials = t.partials → s'.Coherent known → t'.Coherent known → stores s' t'

/-- Keys that are compiled to related templates are compiled in lockstep, whatever the caches
hold. -/
theorem Environment.compileKey_related {q r : Environment} {known : KnownHelpers}
    {stores : Store → Store → Prop} (hstores : Store.CompilingKeeps known stores)
    {excused : Failure → Prop} {templates : Template → Template → Prop}
    (hq : q.helpers.known = known) (hr : r.helpers.known = known) {key key' : CacheKey}
    (hkey : Except.Rel templates (key.compilation known).result (key'.compilation known).result) :
    SessionM.Lockstep stores excused (fun h h' => templates h.template h'.template)
      (q.compileKey key) (r.compileKey key') := by
  intro s t halike
  have hleft := q.compileKey_spec key (hq ▸ hstores.left halike.stores)
  have hright := r.compileKey_spec key' (hr ▸ hstores.right halike.stores)
  rw [hq] at hleft
  rw [hr] at hright
  have hsessions : ∀ {s' t' : Session}, s.Compiles known s' → t.Compiles known t' →
      s'.Alike stores t' := by
    intro s' t' hs ht
    refine ⟨?_, ?_, ?_, ?_⟩
    · exact hstores.of_partials halike.stores hs.partials ht.partials hs.coherent ht.coherent
    · rw [hs.nextStream, ht.nextStream, halike.nextStream]
    · rw [hs.itemsRead, ht.itemsRead, halike.itemsRead]
    · exact hs.notable.trans (halike.log.trans ht.notable.symm)
  generalize (q.compileKey key).run s = left at hleft ⊢
  generalize (r.compileKey key').run t = right at hright ⊢
  rcases left with ⟨h, s'⟩ | ⟨e, s'⟩ <;> rcases right with ⟨h', t'⟩ | ⟨e', t'⟩
  · obtain ⟨hresult, hs⟩ := hleft
    obtain ⟨hresult', ht⟩ := hright
    rw [hresult, hresult'] at hkey
    cases hkey with
    | ok h => exact .ok h (hsessions hs ht)
  · obtain ⟨hresult, hs⟩ := hleft
    obtain ⟨⟨error, rfl, hresult'⟩, ht⟩ := hright
    rw [hresult, hresult'] at hkey
    exact absurd hkey (by rintro ⟨⟩)
  · obtain ⟨⟨error, rfl, hresult⟩, hs⟩ := hleft
    obtain ⟨hresult', ht⟩ := hright
    rw [hresult, hresult'] at hkey
    exact absurd hkey (by rintro ⟨⟩)
  · obtain ⟨⟨error, rfl, hresult⟩, hs⟩ := hleft
    obtain ⟨⟨error', rfl, hresult'⟩, ht⟩ := hright
    rw [hresult, hresult'] at hkey
    cases hkey with
    | error e => exact .error (hsessions hs ht)

end Stencil
