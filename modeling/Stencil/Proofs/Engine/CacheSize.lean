import Stencil.Proofs.Engine.Steps

/-!
# The size of the cache does not matter

Two engines whose configurations differ in nothing but the size of the cache give the same answers
to the same steps.  That covers an engine without a cache, which compiles every source anew, so what
an engine answers is what it would answer without a cache.
-/

set_option autoImplicit false

namespace Stencil

/-- The configuration with a cache of another size. -/
def EngineConfig.withCacheSize (c : EngineConfig) (size : Nat) : EngineConfig :=
  { c with cacheSize := size }

/-- **The cache is transparent.**  Whatever steps two engines take that differ in the size of their
caches only, both give the same answers, with equal templates in them; they register equal partials,
and log the same apart from what is only of interest when looking for a mistake. -/
theorem Engine.follow_withCacheSize (config : EngineConfig) (size : Nat) (loader : Option Loader)
    (escape : Option Escaper) (tree : FileTree) (next : Nat) (steps : List Step) :
    let a := ((create config loader escape tree).withStreams next).follow [] steps
    let b := ((create (config.withCacheSize size) loader escape tree).withStreams next).follow []
      steps
    List.Forall₂ (Option.Rel (Answer.Alike Eq)) a.1 b.1 ∧
      a.2.session.notable = b.2.session.notable ∧
      List.Forall₂ (fun entry entry' => entry.1 = entry'.1 ∧
        entry.2.template = entry'.2.template) a.2.session.store.partials
          b.2.session.store.partials := by
  have henv : (create config loader escape tree).env.Alike Eq (fun _ => False)
      (create (config.withCacheSize size) loader escape tree).env :=
    ⟨rfl, rfl, rfl, .inl rfl, .refl (fun _ _ _ _ => .refl (fun _ => rfl) _) _⟩
  have hfollow := follow_alike standsFor_self (alike_of_env rfl rfl henv next) .nil
    steps
  obtain ⟨hanswers, hengines⟩ := hfollow.forall₂
  exact ⟨hanswers, hengines.session.log, hengines.session.stores.partials⟩

end Stencil
