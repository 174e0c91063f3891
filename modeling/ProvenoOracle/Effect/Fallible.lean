import Mathlib.Tactic

/-! # Computations that can stop halfway

A computation on a state that either returns a value or stops with an error. Unlike a
transaction it does not undo anything: the state it has reached when it stops is the state it
leaves behind.

`Fallible.bind_ok_iff` splits a successful sequence into its successful parts; a result about
the success of a long computation is read off from it, one step at a time.
-/

set_option autoImplicit false

namespace Effect

variable {σ ε α β : Type}

/-- A computation on the state `σ` that returns an `α` or stops with an `ε`. -/
def Fallible (σ ε α : Type) : Type := σ → Except ε α × σ

namespace Fallible

instance : Monad (Fallible σ ε) where
  pure a s := (.ok a, s)
  bind x f s :=
    match x s with
    | (.ok a, s') => f a s'
    | (.error e, s') => (.error e, s')

/-- Stop with an error. -/
def fail (e : ε) : Fallible σ ε α := fun s => (.error e, s)

/-- Stop with the translated error, or go on with the value. -/
def ofExcept {δ : Type} (describe : δ → ε) (x : Except δ α) : Fallible σ ε α :=
  match x with
  | .ok a => pure a
  | .error d => fail (describe d)

/-- Change the state. -/
def modify (f : σ → σ) : Fallible σ ε Unit := fun s => (.ok (), f s)

@[simp] theorem pure_apply (a : α) (s : σ) : (pure a : Fallible σ ε α) s = (.ok a, s) := rfl

@[simp] theorem fail_apply (e : ε) (s : σ) : (fail e : Fallible σ ε α) s = (.error e, s) := rfl

theorem bind_ok {x : Fallible σ ε α} {f : α → Fallible σ ε β} {s s' : σ} {a : α}
    (h : x s = (.ok a, s')) : (x >>= f) s = f a s' := by
  show (match x s with
    | (.ok a, s') => f a s'
    | (.error e, s') => (.error e, s')) = f a s'
  rw [h]

theorem bind_error {x : Fallible σ ε α} {f : α → Fallible σ ε β} {s s' : σ} {e : ε}
    (h : x s = (.error e, s')) : (x >>= f) s = (.error e, s') := by
  show (match x s with
    | (.ok a, s') => f a s'
    | (.error e, s') => (.error e, s')) = (.error e, s')
  rw [h]

/-- Sequencing is associative. -/
theorem bind_assoc {γ : Type} (x : Fallible σ ε α) (f : α → Fallible σ ε β)
    (g : β → Fallible σ ε γ) : (x >>= f) >>= g = x >>= fun a => f a >>= g := by
  funext s
  rcases hx : x s with ⟨e | a, s'⟩
  · rw [bind_error (bind_error hx), bind_error hx]
  · rw [bind_ok hx]
    show ((x >>= f) >>= g) s = (f a >>= g) s'
    rcases hf : f a s' with ⟨e | b, s''⟩
    · rw [bind_error hf]
      exact bind_error ((bind_ok hx).trans hf)
    · rw [bind_ok hf]
      exact bind_ok ((bind_ok hx).trans hf)

/-- **A sequence succeeds when its parts do.** -/
theorem bind_ok_iff {x : Fallible σ ε α} {f : α → Fallible σ ε β} {s s' : σ} {b : β} :
    (x >>= f) s = (.ok b, s') ↔ ∃ a s₁, x s = (.ok a, s₁) ∧ f a s₁ = (.ok b, s') := by
  constructor
  · intro h
    rcases hx : x s with ⟨a | a, s₁⟩
    · rw [bind_error hx] at h
      cases h
    · rw [bind_ok hx] at h
      exact ⟨a, s₁, rfl, h⟩
  · rintro ⟨a, s₁, hx, hf⟩
    rw [bind_ok hx, hf]

@[simp] theorem ofExcept_ok {δ : Type} (describe : δ → ε) (a : α) (s : σ) :
    (ofExcept describe (.ok a) : Fallible σ ε α) s = (.ok a, s) := rfl

@[simp] theorem ofExcept_error {δ : Type} (describe : δ → ε) (d : δ) (s : σ) :
    (ofExcept describe (.error d) : Fallible σ ε α) s = (.error (describe d), s) := rfl

theorem ofExcept_ok_iff {δ : Type} {describe : δ → ε} {x : Except δ α} {s s' : σ} {a : α} :
    ofExcept describe x s = (.ok a, s') ↔ x = .ok a ∧ s' = s := by
  cases x with
  | error d => simp [ofExcept]
  | ok b => simp [ofExcept, eq_comm]

/-! ## Computations that only look -/

/-- The computation leaves the state as it is, whatever its outcome. -/
def ReadOnly (x : Fallible σ ε α) : Prop := ∀ s, (x s).2 = s

theorem readOnly_pure (a : α) : ReadOnly (pure a : Fallible σ ε α) := fun _ => rfl

theorem readOnly_fail (e : ε) : ReadOnly (fail e : Fallible σ ε α) := fun _ => rfl

theorem readOnly_ofExcept {δ : Type} (describe : δ → ε) (x : Except δ α) :
    ReadOnly (ofExcept describe x : Fallible σ ε α) := by
  intro s
  cases x with
  | error d => rfl
  | ok a => rfl

/-- A sequence leaves the state of its first part when the rest only looks. -/
theorem bind_readOnly_state {x : Fallible σ ε α} {f : α → Fallible σ ε β}
    (hf : ∀ a, ReadOnly (f a)) (s : σ) : ((x >>= f) s).2 = (x s).2 := by
  rcases hx : x s with ⟨e | a, s'⟩
  · rw [bind_error hx]
  · rw [bind_ok hx]
    exact hf a s'

theorem ReadOnly.bind {x : Fallible σ ε α} {f : α → Fallible σ ε β} (hx : ReadOnly x)
    (hf : ∀ a, ReadOnly (f a)) : ReadOnly (x >>= f) := by
  intro s
  rw [bind_readOnly_state hf, hx]

end Fallible

end Effect
