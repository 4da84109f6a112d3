import Mathlib.Tactic.Common

/-!
# Fallible computations

Programs that return a result or an error are `do` blocks in `Except`. Every proof about a
successful run takes such a block apart one line at a time, so the three ways a line can succeed are
stated once, as equivalences: a bind succeeds through an intermediate value, a guard succeeds when
its condition holds, an optional value converted to a result succeeds when it is there.
-/

namespace Fallible

universe u v

variable {ε : Type u} {α β : Type v}

/-- Stop with `e` unless `p` holds. -/
def require (p : Prop) [Decidable p] (e : ε) : Except ε Unit := if p then .ok () else .error e

/-- The value, or the error `e` for want of one. -/
def okOr (x : Option α) (e : ε) : Except ε α :=
  match x with
  | some a => .ok a
  | none => .error e

theorem bind_eq_ok {x : Except ε α} {f : α → Except ε β} {b : β} :
    x >>= f = .ok b ↔ ∃ a, x = .ok a ∧ f a = .ok b := by
  cases x with
  | error e =>
    constructor
    · intro h
      cases h
    · rintro ⟨a, ha, -⟩
      cases ha
  | ok a =>
    constructor
    · exact fun h ↦ ⟨a, rfl, h⟩
    · rintro ⟨a', ha, h⟩
      cases ha
      exact h

theorem pure_eq_ok {a b : α} : (pure a : Except ε α) = .ok b ↔ a = b :=
  Except.ok.injEq a b ▸ Iff.rfl

@[simp] theorem require_eq_ok {p : Prop} [Decidable p] {e : ε} {u : Unit} :
    require p e = .ok u ↔ p := by
  rw [require]
  split_ifs with h <;> simp [h]

@[simp] theorem okOr_eq_ok {x : Option α} {e : ε} {a : α} : okOr x e = .ok a ↔ x = some a := by
  cases x <;> simp [okOr]

/-! ## Failing

The other half: which line an error comes from. A block whose lines are all taken apart this way
cannot fail with an error none of them has. -/

theorem bind_eq_error {x : Except ε α} {f : α → Except ε β} {e : ε} :
    x >>= f = .error e ↔ x = .error e ∨ ∃ a, x = .ok a ∧ f a = .error e := by
  cases x with
  | error e' =>
    constructor
    · intro h
      cases h
      exact .inl rfl
    · rintro (h | ⟨a, ha, -⟩)
      · cases h
        rfl
      · cases ha
  | ok a =>
    constructor
    · exact fun h ↦ .inr ⟨a, rfl, h⟩
    · rintro (h | ⟨a', ha, h⟩)
      · cases h
      · cases ha
        exact h

theorem pure_ne_error {a : α} {e : ε} : (pure a : Except ε α) ≠ .error e := by
  intro h
  cases h

@[simp] theorem require_eq_error {p : Prop} [Decidable p] {e e' : ε} :
    require p e = .error e' ↔ ¬p ∧ e = e' := by
  rw [require]
  split_ifs with h <;> simp [h]

@[simp] theorem okOr_eq_error {x : Option α} {e e' : ε} :
    okOr x e = .error e' ↔ x = none ∧ e = e' := by
  cases x <;> simp [okOr]

end Fallible
