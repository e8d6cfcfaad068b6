import Stencil.Proofs.Engine.Coherent

/-!
# What a partial tag inserts

A partial is looked up among those that are registered, and else it is loaded, compiled and
registered.  `Environment.insertion?` is the template that comes out of this, without the detour
over the state of an engine: loading a partial changes what is registered, but it does not change
what is inserted under any name (`Environment.partialNamed_spec`).

So it does not matter which partials have been loaded already: two engines that insert the same
find the same (`Environment.partialNamed_related`).
-/

set_option autoImplicit false

namespace Stencil

namespace Environment

/-- The template that is inserted under a name when some partials are registered, if there is
one. -/
def insertion? (env : Environment) (partials : Table Handle) (name : Text) : Option Template :=
  match Table.get? partials name with
  | some h => some h.template
  | none => do
    let loader ← env.loader
    let source ← (loader.load name).2
    let options ← env.config.compileOptions.toOption
    (Template.compile env.helpers.known options name source).result.toOption

variable {env : Environment}

/-- What is inserted is registered, or else compiled from the source that the loader has. -/
theorem insertion?_eq_some {partials : Table Handle} {name : Text} {t : Template}
    (h : env.insertion? partials name = some t) :
    (∃ handle, Table.get? partials name = some handle ∧ handle.template = t) ∨
      ∃ loader source options, env.loader = some loader ∧ (loader.load name).2 = some source ∧
        env.config.compileOptions = .ok options ∧
        (Template.compile env.helpers.known options name source).result = .ok t := by
  rw [insertion?] at h
  split at h
  · rename_i handle hget
    exact .inl ⟨handle, hget, Option.some.inj h⟩
  · obtain ⟨loader, hloader, h⟩ := Option.bind_eq_some_iff.1 h
    obtain ⟨source, hsource, h⟩ := Option.bind_eq_some_iff.1 h
    obtain ⟨options, hoptions, h⟩ := Option.bind_eq_some_iff.1 h
    rw [Except.toOption_eq_some] at hoptions h
    exact .inr ⟨loader, source, options, hloader, hsource, hoptions, h⟩

/-- What a source is compiled to with the options of the configuration. -/
def compiled (env : Environment) (name source : Text) : Except TemplateError Template := do
  let options ← env.config.compileOptions
  (Template.compile env.helpers.known options name source).result

/-- What the source that the loader has for a name is compiled to. -/
def loaded (env : Environment) (name : Text) : Except Failure Template :=
  match env.loader.bind fun loader => loader.fault? name with
  | some e => .error (.foreign e)
  | none =>
    match env.loader.bind fun loader => (loader.load name).2 with
    | none => .error (.template (.partialNotFound name))
    | some source => (env.compiled name source).mapError .template

/-- What is inserted under a name that is not registered is what is loaded. -/
theorem insertion?_of_get?_eq_none {partials : Table Handle} {name : Text}
    (h : Table.get? partials name = none) :
    env.insertion? partials name = (env.loaded name).toOption := by
  rw [insertion?, h, loaded]
  cases env.loader with
  | none => rfl
  | some loader =>
    simp only [Option.bind_some, Option.bind_eq_bind]
    cases hfault : loader.fault? name with
    | some e => rw [Loader.load_of_fault? hfault]; rfl
    | none =>
      cases (loader.load name).2 with
      | none => rfl
      | some source =>
        simp only [Option.bind_some, compiled]
        cases env.config.compileOptions with
        | error e => rfl
        | ok options =>
          show (Template.compile env.helpers.known options name source).result.toOption =
            ((Template.compile env.helpers.known options name source).result.mapError _).toOption
          cases (Template.compile env.helpers.known options name source).result <;> rfl

/-- Compiling a source with the options of the configuration comes to what it is compiled to, and
changes nothing but the cache. -/
theorem compile_spec (env : Environment) (name source : Text) {s : Session}
    (hs : s.store.Coherent env.helpers.known) :
    match (env.compile name source).run s with
    | .ok h t => env.compiled name source = .ok h.template ∧ s.Compiles env.helpers.known t
    | .error e t => (∃ error, e = .template error ∧ env.compiled name source = .error error) ∧
        s.Compiles env.helpers.known t := by
  rw [compile, compiled]
  cases env.config.compileOptions with
  | error e => exact ⟨⟨e, rfl, rfl⟩, rfl, hs, rfl, rfl, rfl⟩
  | ok options => exact env.compileKey_spec { name, source, options } hs

/-- Registering what is inserted under a name anyway does not change what is inserted. -/
theorem insertion?_insert {partials : Table Handle} {name : Text} {h : Handle}
    (hname : env.insertion? partials name = some h.template) (other : Text) :
    env.insertion? (Table.insert partials name h) other = env.insertion? partials other := by
  by_cases hother : other = name
  · subst hother
    rw [hname, insertion?, Table.get?_insert, if_pos rfl]
  · rw [insertion?, insertion?, Table.get?_insert, if_neg hother]

/-- The invariant of an engine whose partials are only loaded: its cache is coherent, and what is
inserted under every name is what was inserted in the beginning. -/
def Inserts (env : Environment) (partials : Table Handle) (s : Store) : Prop :=
  s.Coherent env.helpers.known ∧
    ∀ name, env.insertion? s.partials name = env.insertion? partials name

theorem Inserts.insert {partials : Table Handle} {s : Store} (hs : env.Inserts partials s)
    {name : Text} {h : Handle} (hname : env.insertion? partials name = some h.template) :
    env.Inserts partials { s with partials := Table.insert s.partials name h } := by
  refine ⟨hs.1, fun other => ?_⟩
  rw [← hs.2 other]
  exact insertion?_insert ((hs.2 name).trans hname) other

/-! ## Looking up a partial -/

/-- A loader that has a source gives no warning. -/
theorem isNotable_of_load_eq_some {loader : Loader} {name source : Text}
    (h : (loader.load name).2 = some source) {e : Event} (he : e ∈ (loader.load name).1) :
    e.isNotable = false := by
  rcases Loader.eq_of_mem_load he with ⟨-, hnone⟩ | ⟨_, _, rfl⟩
  · exact absurd (h.symm.trans hnone) (by simp)
  · rfl

/-- The warnings that are given when the partial of a name is loaded. -/
def warnings (env : Environment) (name : Text) : List Event :=
  (env.loader.toList.flatMap fun loader => (loader.load name).1).filter Event.isNotable

/-- What looking up a partial leaves as it is: what is inserted under every name, and the streams;
some warnings are given. -/
structure Finds (env : Environment) (partials : Table Handle) (given : List Event)
    (s t : Session) : Prop where
  /-- The same is inserted. -/
  inserts : env.Inserts partials t.store
  /-- No stream is made. -/
  nextStream : t.nextStream = s.nextStream
  /-- No stream is read. -/
  itemsRead : t.itemsRead = s.itemsRead
  /-- The warnings are logged. -/
  notable : t.notable = given.reverse ++ s.notable

/-- What comes out of looking up the partial of a name: the template that is inserted under it, or
the error of loading it, with the warnings of that. -/
def FindsIn (env : Environment) (partials : Table Handle) (name : Text) (s : Session) :
    EStateM.Result Failure Session Handle → Prop
  | .ok h t => env.insertion? partials name = some h.template ∧ env.Finds partials [] s t
  | .error e t => env.insertion? partials name = none ∧ env.loaded name = .error e ∧
      env.Finds partials (env.warnings name) s t

/-- What is found under a lock is found. -/
theorem FindsIn.locking {partials : Table Handle} {name : Text} {s : Session} {x : SessionM Handle}
    (h : env.FindsIn partials name { s with store := s.store.lock name }
      (x.run { s with store := s.store.lock name })) :
    env.FindsIn partials name s ((SessionM.locking name x).run s) := by
  rw [SessionM.run_locking]
  generalize x.run { s with store := s.store.lock name } = outcome at h
  cases outcome with
  | ok k t =>
    obtain ⟨hresult, hinserts, hstream, hread, hnotable⟩ := h
    exact ⟨hresult, hinserts, hstream, hread, hnotable⟩
  | error e t =>
    obtain ⟨hnone, herror, hinserts, hstream, hread, hnotable⟩ := h
    exact ⟨hnone, herror, hinserts, hstream, hread, hnotable⟩

/-- Loading the partial of a name that is not registered finds what is inserted under it. -/
theorem loadPartial_spec {loader : Loader} (hloader : env.loader = some loader)
    {partials : Table Handle} {name : Text} {s : Session} (hs : env.Inserts partials s.store)
    (hget : Table.get? s.store.partials name = none) :
    env.FindsIn partials name s ((env.loadPartial loader name).run s) := by
  have hinsertion : env.insertion? partials name = (env.loaded name).toOption := by
    rw [← hs.2 name, insertion?_of_get?_eq_none hget]
  have hwarnings : env.warnings name = (loader.load name).1.filter Event.isNotable := by
    simp [warnings, hloader]
  have hquiet : ∀ source, (loader.load name).2 = some source →
      ∀ e ∈ (loader.load name).1, e.isNotable = false :=
    fun _ h _ => isNotable_of_load_eq_some h
  rw [loadPartial]
  cases hfault : loader.fault? name with
  | some e =>
    have hloaded : env.loaded name = .error (.foreign e) := by
      rw [loaded, hloader, Option.bind_some, hfault]
    refine ⟨?_, hloaded, hs, rfl, rfl, ?_⟩
    · rw [hinsertion, hloaded]
      rfl
    · rw [hwarnings, Loader.load_of_fault? hfault]
      rfl
  | none =>
  have hloaded : env.loaded name = match (loader.load name).2 with
      | none => .error (.template (.partialNotFound name))
      | some source => (env.compiled name source).mapError .template := by
    simp only [loaded, hloader, Option.bind_some, hfault]
  generalize loader.load name = found at hloaded hwarnings hquiet ⊢
  obtain ⟨events, source?⟩ := found
  cases source? with
  | none =>
    refine ⟨?_, hloaded, hs, rfl, rfl, ?_⟩
    · rw [hinsertion, hloaded]
      rfl
    · show (events.reverse ++ s.log).filter _ = _
      rw [hwarnings, List.filter_append, ← List.filter_reverse]
      rfl
  | some source =>
    -- the session that the source is compiled in
    let s' : Session := { s with log := .partialLoaded name :: (events.reverse ++ s.log) }
    have hnotable : s'.notable = s.notable :=
      filter_isNotable_append (hquiet source rfl) s.log
    have hnone : env.warnings name = [] := by
      rw [hwarnings, List.filter_eq_nil_iff]
      intro e he
      rw [hquiet source rfl e he]
      decide
    have hcompile := env.compile_spec name source (s := s') hs.1
    dsimp only at hloaded
    show env.FindsIn partials name s (EStateM.run (env.compile name source >>= _) s')
    rw [EStateM.run_bind]
    generalize (env.compile name source).run s' = outcome at hcompile ⊢
    cases outcome with
    | ok h t =>
      obtain ⟨hresult, hcompiles⟩ := hcompile
      rw [hloaded, hresult] at hinsertion
      have ht : env.Inserts partials t.store :=
        ⟨hcompiles.coherent, hcompiles.partials ▸ hs.2⟩
      exact ⟨hinsertion, ht.insert hinsertion, hcompiles.nextStream, hcompiles.itemsRead,
        hcompiles.notable.trans hnotable⟩
    | error e t =>
      obtain ⟨⟨error, rfl, hresult⟩, hcompiles⟩ := hcompile
      rw [hresult] at hloaded
      rw [hloaded] at hinsertion
      refine ⟨hinsertion, hloaded, ⟨hcompiles.coherent, hcompiles.partials ▸ hs.2⟩,
        hcompiles.nextStream, hcompiles.itemsRead, ?_⟩
      rw [hnone]
      exact hcompiles.notable.trans hnotable

/-- **Looking up a partial answers what is inserted under its name**, and changes nothing of what is
inserted under any name.  If nothing is inserted, it fails as loading the partial does. -/
theorem partialNamed_spec {partials : Table Handle} (name : Text) {s : Session}
    (hs : env.Inserts partials s.store) :
    env.FindsIn partials name s ((env.partialNamed name).run s) := by
  have hregistered : ∀ h : Handle, Table.get? s.store.partials name = some h →
      env.insertion? partials name = some h.template := by
    intro h hget
    rw [← hs.2 name, insertion?, hget]
  rw [partialNamed, SessionM.run_registeredOr]
  cases hget : Table.get? s.store.partials name with
  | some h => exact ⟨hregistered h hget, hs, rfl, rfl, rfl⟩
  | none =>
    dsimp only
    cases hloader : env.loader with
    | none =>
      have hloaded : env.loaded name = .error (.template (.partialNotFound name)) := by
        rw [loaded, hloader]
        rfl
      refine ⟨?_, hloaded, hs, rfl, rfl, ?_⟩
      · rw [← hs.2 name, insertion?_of_get?_eq_none hget, hloaded]
        rfl
      · rw [warnings, hloader]
        rfl
    | some loader =>
      -- locks do not matter for what is registered
      have hlocked : Table.get? (s.store.lock name).partials name = none := hget
      refine FindsIn.locking ?_
      rw [SessionM.run_registeredOr, hlocked]
      exact loadPartial_spec hloader hs hget

/-- Looking up a partial keeps what is inserted. -/
theorem partialNamed_keeps (env : Environment) (partials : Table Handle) (name : Text) :
    (env.partialNamed name).Keeps (fun s => env.Inserts partials s.store)
      fun h => env.insertion? partials name = some h.template := by
  intro s hs
  have hfinds := partialNamed_spec name hs
  generalize (env.partialNamed name).run s = outcome at hfinds ⊢
  cases outcome with
  | ok h t => exact ⟨hfinds.2.inserts, hfinds.1⟩
  | error e t => exact hfinds.2.2.inserts

/-- Both of two stores insert what some partials do. -/
def BothInsert (env : Environment) (partials : Table Handle) (s t : Store) : Prop :=
  env.Inserts partials s ∧ env.Inserts partials t

theorem Finds.alike {partials : Table Handle} {given : List Event} {s s' t t' : Session}
    (hs : env.Finds partials given s s') (ht : env.Finds partials given t t')
    (h : s.Alike (env.BothInsert partials) t) : s'.Alike (env.BothInsert partials) t' := by
  refine ⟨⟨hs.inserts, ht.inserts⟩, ?_, ?_, ?_⟩
  · rw [hs.nextStream, ht.nextStream, h.nextStream]
  · rw [hs.itemsRead, ht.itemsRead, h.itemsRead]
  · have hlog : s.notable = t.notable := h.log
    exact hs.notable.trans (hlog ▸ ht.notable.symm)

/-- **Whether a partial has been loaded already does not matter**: where the same is inserted, the
same is found, or the same failure. -/
theorem partialNamed_related (env : Environment) (partials : Table Handle) (name : Text) :
    SessionM.Lockstep (env.BothInsert partials) (fun _ => False)
      (fun h k => h.template = k.template) (env.partialNamed name) (env.partialNamed name) := by
  intro s t halike
  have hleft := partialNamed_spec name halike.stores.1
  have hright := partialNamed_spec name halike.stores.2
  generalize (env.partialNamed name).run s = left at hleft ⊢
  generalize (env.partialNamed name).run t = right at hright ⊢
  rcases left with ⟨h, s'⟩ | ⟨e, s'⟩ <;> rcases right with ⟨k, t'⟩ | ⟨e', t'⟩
  · have hresult := Option.some.inj (hleft.1.symm.trans hright.1)
    exact .ok hresult (hleft.2.alike hright.2 halike)
  · exact absurd (hleft.1.symm.trans hright.1) (by simp)
  · exact absurd (hleft.1.symm.trans hright.1) (by simp)
  · obtain ⟨-, hloaded, hs⟩ := hleft
    obtain ⟨-, hloaded', ht⟩ := hright
    obtain rfl : e = e' := Except.error.inj (hloaded.symm.trans hloaded')
    exact .error (hs.alike ht halike)

end Environment

end Stencil
