import Mathlib.Tactic

/-! # Invariants along a run

A run of a step function is a fold over its inputs. When each input of a run has a condition that
says exactly whether its step keeps an invariant, the invariant holds all along the run exactly
when every input meets its condition in the state it finds.
-/

set_option autoImplicit false

namespace Effect

variable {σ ι : Type} {step : σ → ι → σ} {Inv : σ → Prop} {Safe : ι → σ → Prop} {inputs : List ι}
  {s : σ}

/-- Safe inputs keep the invariant all along the run, by induction on the part that has run. -/
theorem invariant_of_safe (hstep : ∀ i ∈ inputs, ∀ s, Inv s → Safe i s → Inv (step s i))
    (hstart : Inv s)
    (hsafe : ∀ before i after, inputs = before ++ i :: after → Safe i (before.foldl step s)) :
    ∀ before after, inputs = before ++ after → Inv (before.foldl step s) := by
  intro before
  induction before using List.reverseRecOn with
  | nil => exact fun _ _ => hstart
  | append_singleton before i ih =>
      intro after hsplit
      have hsplit' : inputs = before ++ i :: after := by
        rw [hsplit, List.append_assoc, List.singleton_append]
      have hmem : i ∈ inputs := by
        rw [hsplit']
        simp
      rw [List.foldl_append]
      exact hstep i hmem _ (ih (i :: after) hsplit') (hsafe before i after hsplit')

/-- **The invariant holds all along the run exactly when every input is safe where it comes.** -/
theorem invariant_iff_safe (hstep : ∀ i ∈ inputs, ∀ s, Inv s → (Inv (step s i) ↔ Safe i s))
    (hstart : Inv s) :
    (∀ before after, inputs = before ++ after → Inv (before.foldl step s)) ↔
      ∀ before i after, inputs = before ++ i :: after → Safe i (before.foldl step s) := by
  constructor
  · intro hinv before i after hsplit
    have hmem : i ∈ inputs := by
      rw [hsplit]
      simp
    have hnext : Inv ((before ++ [i]).foldl step s) := by
      apply hinv _ after
      rw [hsplit, List.append_assoc, List.singleton_append]
    rw [List.foldl_append] at hnext
    exact (hstep i hmem _ (hinv before (i :: after) hsplit)).mp hnext
  · intro hsafe
    exact invariant_of_safe (fun i hi s hs => (hstep i hi s hs).mpr) hstart hsafe

/-! ## Inputs for different parts of the state -/

section Parts

variable {κ α β : Type} [DecidableEq κ]

theorem lookup_cons_if (k k₀ : κ) (b : β) (inputs : List (κ × β)) :
    ((k₀, b) :: inputs).lookup k = if k = k₀ then some b else inputs.lookup k := by
  by_cases hk : k = k₀
  · simp [hk]
  · have hne : (k == k₀) = false := by simpa using hk
    simp [List.lookup_cons, hk, hne]

/-- Looking up a key among keys that all have one value. -/
theorem lookup_map_const (keys : List κ) (b : β) (k : κ) :
    (keys.map (·, b)).lookup k = if k ∈ keys then some b else none := by
  induction keys with
  | nil => rfl
  | cons k₀ keys ih =>
      rw [List.map_cons, lookup_cons_if, ih]
      by_cases hk : k = k₀ <;> simp [hk]

variable {act : σ → κ × β → σ} {part : σ → κ → α} {change : β → α → α}

/-- When each input changes the part under its own key, and no key comes twice, every part is
changed by its own input only. -/
theorem foldl_part
    (hact : ∀ s k b k', part (act s (k, b)) k' = if k' = k then change b (part s k') else part s k')
    {inputs : List (κ × β)} (hkeys : (inputs.map Prod.fst).Nodup) (s : σ) (k : κ) :
    part (inputs.foldl act s) k = (inputs.lookup k).elim (part s k) (change · (part s k)) := by
  induction inputs generalizing s with
  | nil => rfl
  | cons input inputs ih =>
      obtain ⟨k₀, b⟩ := input
      rw [List.map_cons, List.nodup_cons] at hkeys
      rw [List.foldl_cons, ih hkeys.2, hact]
      by_cases hk : k = k₀
      · subst hk
        have hnone : inputs.lookup k = none := by
          rw [List.lookup_eq_none_iff]
          intro input hinput
          have hne : k ≠ input.1 := by
            intro h
            apply hkeys.1
            simpa [h] using List.mem_map_of_mem (f := Prod.fst) hinput
          simpa using hne
        simp [hnone]
      · simp [hk, lookup_cons_if]

end Parts

end Effect
