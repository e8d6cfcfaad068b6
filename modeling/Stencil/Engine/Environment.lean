import Stencil.Config
import Stencil.Engine.Session
import Stencil.Loader

/-!
# Compiling within an engine

An engine compiles a source once for each name and options, as long as its cache holds the result,
and a partial that is not registered once it is asked for.  What compiling depends on apart from the
session is the `Environment`; it does not change while a template is rendered.
-/

set_option autoImplicit false

namespace Stencil

/-- What an engine works with. -/
structure Environment where
  /-- How the engine works. -/
  config : EngineConfig := .standard
  /-- The source of partials that are not registered. -/
  loader : Option Loader := none
  /-- What turns the text of a value into output. -/
  escape : Escaper := Escaper.html
  /-- The helpers that templates can call. -/
  helpers : HelperRegistry := .builtins

/-- The store that remembers a compiled template under a key, and the keys it drops for that. -/
def Store.keep (s : Store) (capacity : Nat) (key : CacheKey) (h : Handle) : Store × List CacheKey :=
  let cache := s.cache.use key h
  ({ s with cache := cache.trim capacity }, cache.overflow capacity)

namespace Environment

/-- Gives a template a number that no other one has. -/
def newHandle (t : Template) : SessionM Handle := do
  let s ← get
  set { s with store := { s.store with nextSerial := s.store.nextSerial + 1 } }
  return ⟨s.store.nextSerial, t⟩

/-- Compiles what a key stands for and remembers the result. -/
def compileKey (env : Environment) (key : CacheKey) : SessionM Handle := do
  match (← get).store.cache.get? key with
  | some h =>
    SessionM.modifyStore fun s => { s with cache := s.cache.use key h }
    SessionM.record [.cacheHit key]
    return h
  | none =>
    let compilation := Template.compile env.helpers.known key.options key.name key.source
    SessionM.record compilation.events
    let t ← SessionM.ofExcept compilation.result
    let h ← newHandle t
    if env.config.cacheSize = 0 then
      return h
    else
      let (store, dropped) := (← get).store.keep env.config.cacheSize key h
      SessionM.modifyStore fun _ => store
      SessionM.record (dropped.map fun k => .evicted k.name)
      return h

/-- Compiles a source with the options of the configuration. -/
def compile (env : Environment) (name source : Text) : SessionM Handle := do
  let options ← SessionM.ofExcept env.config.compileOptions
  env.compileKey { name, source, options }

/-- Loads the partial of a name, compiles it and registers it. -/
def loadPartial (env : Environment) (loader : Loader) (name : Text) : SessionM Handle :=
  match loader.fault? name with
  | some e => throw (.foreign e)
  | none => do
    let (events, source?) := loader.load name
    SessionM.record events
    match source? with
    | none => throw (.template (.partialNotFound name))
    | some source =>
      SessionM.record [.partialLoaded name]
      let h ← env.compile name source
      SessionM.modifyStore fun s => { s with partials := Table.insert s.partials name h }
      return h

/-- The partial of a name: the one that is registered, or else one from the loader, which is
registered by that.  The name is locked while its partial is loaded, and looked up again under the
lock. -/
def partialNamed (env : Environment) (name : Text) : SessionM Handle :=
  SessionM.registeredOr name <|
    match env.loader with
    | none => throw (.template (.partialNotFound name))
    | some loader => SessionM.locking name (.registeredOr name (env.loadPartial loader name))

end Environment

end Stencil
