import Mathlib.Logic.Basic

/-!
# Results that may be errors

When a composed computation succeeds its parts have succeeded, and when it fails one of them has
failed.  These are the facts that take such a computation apart.  `Except.Rel` compares two results
that are not equal but succeed with related values.
-/

set_option autoImplicit false

namespace Stencil

variable {ε α β : Type}

theorem Except.isOk_iff {r : Except ε α} : r.isOk = true ↔ ∃ a, r = .ok a := by
  cases r <;> simp [Except.isOk, Except.toBool]

theorem Except.map_eq_ok {r : Except ε α} {f : α → β} {b : β} :
    r.map f = .ok b ↔ ∃ a, r = .ok a ∧ f a = b := by
  cases r <;> simp [Except.map]

theorem Except.map_eq_error {r : Except ε α} {f : α → β} {e : ε} :
    r.map f = .error e ↔ r = .error e := by
  cases r <;> simp [Except.map]

theorem Except.mapError_eq_ok {δ : Type} {r : Except ε α} {f : ε → δ} {a : α} :
    r.mapError f = .ok a ↔ r = .ok a := by
  cases r with
  | ok b => exact ⟨fun h => congrArg _ (Except.ok.inj h), fun h => congrArg _ (Except.ok.inj h)⟩
  | error e => exact ⟨nofun, nofun⟩

theorem Except.mapError_eq_error {δ : Type} {r : Except ε α} {f : ε → δ} {d : δ} :
    r.mapError f = .error d ↔ ∃ e, r = .error e ∧ f e = d := by
  cases r with
  | ok b => exact ⟨nofun, fun ⟨_, h, _⟩ => nomatch h⟩
  | error e =>
    refine ⟨fun h => ⟨e, rfl, Except.error.inj h⟩, fun ⟨_, he, hd⟩ => ?_⟩
    rw [← hd, ← Except.error.inj he]
    rfl

theorem Except.bind_eq_ok {r : Except ε α} {f : α → Except ε β} {b : β} :
    r.bind f = .ok b ↔ ∃ a, r = .ok a ∧ f a = .ok b := by
  cases r <;> simp [Except.bind]

theorem Except.bind_eq_error {r : Except ε α} {f : α → Except ε β} {e : ε} :
    r.bind f = .error e ↔ r = .error e ∨ ∃ a, r = .ok a ∧ f a = .error e := by
  cases r <;> simp [Except.bind]

theorem Except.exists_map_eq_ok {r : Except ε α} {f : α → β} :
    (∃ b, r.map f = .ok b) ↔ ∃ a, r = .ok a := by
  cases r <;> simp [Except.map]

theorem Except.exists_bind_eq_ok {r : Except ε α} {f : α → Except ε β} :
    (∃ b, r.bind f = .ok b) ↔ ∃ a, r = .ok a ∧ ∃ b, f a = .ok b := by
  simp only [Except.bind_eq_ok]
  exact ⟨fun ⟨b, a, ha, hb⟩ => ⟨a, ha, b, hb⟩, fun ⟨a, ha, b, hb⟩ => ⟨b, a, ha, hb⟩⟩

theorem Except.toOption_eq_some {r : Except ε α} {a : α} : r.toOption = some a ↔ r = .ok a := by
  cases r <;> simp [Except.toOption]

/-- Two results are related if both are the same error, or both succeed with related values. -/
inductive Except.Rel (values : α → β → Prop) : Except ε α → Except ε β → Prop
  /-- Both succeed. -/
  | ok {a : α} {b : β} (h : values a b) : Rel values (.ok a) (.ok b)
  /-- Both fail in the same way. -/
  | error (e : ε) : Rel values (.error e) (.error e)

theorem Except.Rel.refl {values : α → α → Prop} (h : ∀ a, values a a) (r : Except ε α) :
    Except.Rel values r r := by
  cases r with
  | ok a => exact .ok (h a)
  | error e => exact .error e

theorem Except.Rel.eq {values : α → α → Prop} {r r' : Except ε α} (h : Except.Rel values r r')
    (hvalues : ∀ {a b}, values a b → a = b) : r = r' := by
  cases h with
  | ok h => rw [hvalues h]
  | error e => rfl

end Stencil
