import ProvenoOracle.Effect.Fallible

/-! # Owning a resource

A computation keeps a log of what it does to the world, and can stop halfway. `Writes` says what it
adds to the log, for each of its two ways out, and has a rule for each way to build one.

A scope that owns a resource gives it up when it is left: with an error only, if its value carries
the resource on (`owning`), or either way (`holding`). What is written when a resource is given up
therefore stands at the end of what the scope writes, on every way out (`Writes.owning`,
`Writes.holding`).
-/

set_option autoImplicit false

namespace Effect

namespace Fallible

variable {A ε δ α β : Type}

/-- Add an entry to the log. -/
def emit (a : A) : Fallible (List A) ε Unit := modify (· ++ [a])

/-- Translate the error. -/
def mapError (describe : δ → ε) (x : Fallible (List A) δ α) : Fallible (List A) ε α :=
  fun log => ((x log).1.mapError describe, (x log).2)

/-- A scope whose value carries its resource on: the resource is given up after an error. -/
def owning (release : List A) (x : Fallible (List A) ε α) : Fallible (List A) ε α :=
  fun log =>
    match x log with
    | (.ok a, log') => (.ok a, log')
    | (.error e, log') => (.error e, log' ++ release)

/-- A scope that gives its resource up at its end. -/
def holding (release : List A) (x : Fallible (List A) ε α) : Fallible (List A) ε α :=
  fun log => ((x log).1, (x log).2 ++ release)

/-- What a computation adds to the log: `Q a` when it returns `a`, `E e` when it stops with `e`. -/
def Writes (x : Fallible (List A) ε α) (Q : α → List A → Prop) (E : ε → List A → Prop) : Prop :=
  ∀ log, ∃ w, (x log).2 = log ++ w ∧
    match (x log).1 with
    | .ok a => Q a w
    | .error e => E e w

section Rules

variable {x : Fallible (List A) ε α} {Q : α → List A → Prop} {E : ε → List A → Prop}

theorem Writes.mono {Q' : α → List A → Prop} {E' : ε → List A → Prop} (hx : Writes x Q' E')
    (hQ : ∀ a w, Q' a w → Q a w) (hE : ∀ e w, E' e w → E e w) : Writes x Q E := by
  intro log
  obtain ⟨w, hlog, hw⟩ := hx log
  refine ⟨w, hlog, ?_⟩
  cases hx : (x log).1 with
  | ok a => exact hQ a w (by simpa [hx] using hw)
  | error e => exact hE e w (by simpa [hx] using hw)

theorem Writes.pure {a : α} (h : Q a []) : Writes (pure a : Fallible (List A) ε α) Q E :=
  fun log => ⟨[], (List.append_nil log).symm, h⟩

theorem Writes.fail {e : ε} (h : E e []) : Writes (Fallible.fail e) Q E :=
  fun log => ⟨[], (List.append_nil log).symm, h⟩

theorem Writes.emit {Q : Unit → List A → Prop} {a : A} (h : Q () [a]) :
    Writes (Fallible.emit a) Q E :=
  fun _ => ⟨[a], rfl, h⟩

theorem Writes.ofExcept {describe : δ → ε} {y : Except δ α} (hok : ∀ a, y = .ok a → Q a [])
    (herror : ∀ d, y = .error d → E (describe d) []) :
    Writes (Fallible.ofExcept describe y) Q E := by
  cases y with
  | ok a => exact Writes.pure (hok a rfl)
  | error d => exact Writes.fail (herror d rfl)

/-- What the second part writes stands behind what the first part has written. -/
theorem Writes.bind {f : α → Fallible (List A) ε β} {R : β → List A → Prop}
    (hx : Writes x Q E)
    (hf : ∀ a u, Q a u → Writes (f a) (fun b v => R b (u ++ v)) fun e v => E e (u ++ v)) :
    Writes (x >>= f) R E := by
  intro log
  obtain ⟨u, hlog, hu⟩ := hx log
  rcases hx : x log with ⟨e | a, log'⟩
  · rw [hx] at hlog hu
    refine ⟨u, ?_, ?_⟩
    · rw [bind_error hx]
      exact hlog
    · rw [bind_error hx]
      exact hu
  · rw [hx] at hlog hu
    obtain ⟨v, hlog', hv⟩ := hf a u hu log'
    refine ⟨u ++ v, ?_, ?_⟩
    · rw [bind_ok hx, hlog', show log' = log ++ u from hlog, List.append_assoc]
    · rw [bind_ok hx]
      exact hv

theorem Writes.mapError {describe : δ → ε} {y : Fallible (List A) δ α}
    (hy : Writes y Q fun d => E (describe d)) : Writes (Fallible.mapError describe y) Q E := by
  intro log
  obtain ⟨w, hlog, hw⟩ := hy log
  refine ⟨w, hlog, ?_⟩
  show match (y log).1.mapError describe with
    | .ok a => Q a w
    | .error e => E e w
  revert hw
  cases (y log).1 with
  | ok a => exact id
  | error d => exact id

/-- **The resource is given up on the way out with an error.** -/
theorem Writes.owning {release : List A} {D : ε → List A → Prop} (hx : Writes x Q D)
    (hE : ∀ e w, D e w → E e (w ++ release)) : Writes (Fallible.owning release x) Q E := by
  intro log
  obtain ⟨w, hlog, hw⟩ := hx log
  unfold Fallible.owning
  rcases hx : x log with ⟨e | a, log'⟩
  · rw [hx] at hlog hw
    exact ⟨w ++ release, by simp [show log' = log ++ w from hlog], hE e w hw⟩
  · rw [hx] at hlog hw
    exact ⟨w, hlog, hw⟩

/-- **The resource is given up on either way out.** -/
theorem Writes.holding {release : List A} {R : α → List A → Prop} {D : ε → List A → Prop}
    (hx : Writes x R D) (hQ : ∀ a w, R a w → Q a (w ++ release))
    (hE : ∀ e w, D e w → E e (w ++ release)) : Writes (Fallible.holding release x) Q E := by
  intro log
  obtain ⟨w, hlog, hw⟩ := hx log
  refine ⟨w ++ release, ?_, ?_⟩
  · show (x log).2 ++ release = log ++ (w ++ release)
    rw [hlog, List.append_assoc]
  · show match (x log).1 with
      | .ok a => Q a (w ++ release)
      | .error e => E e (w ++ release)
    cases hx : (x log).1 with
    | ok a => exact hQ a w (by simpa [hx] using hw)
    | error e => exact hE e w (by simpa [hx] using hw)

end Rules

end Fallible

end Effect
