import Mathlib.Tactic

/-! # Systems of guarded steps

A system takes one step at a time, and a step is possible in some states only. `run` takes a
sequence of steps, which may come from many parties in any order: what holds of every `run` holds
of every interleaving.
-/

set_option autoImplicit false

namespace Effect

universe u v w

variable {σ : Type u} {ι : Type v} {step : σ → ι → Option σ}

/-- The state behind a sequence of steps, if each of them is possible where it comes. -/
def run (step : σ → ι → Option σ) (s : σ) (steps : List ι) : Option σ := steps.foldlM step s

@[simp] theorem run_nil (s : σ) : run step s [] = some s := rfl

theorem run_cons {s s' : σ} {i : ι} {steps : List ι} :
    run step s (i :: steps) = some s' ↔ ∃ t, step s i = some t ∧ run step t steps = some s' := by
  rw [run, List.foldlM_cons]
  exact Option.bind_eq_some_iff

theorem run_append {s s' : σ} {before after : List ι} :
    run step s (before ++ after) = some s' ↔
      ∃ t, run step s before = some t ∧ run step t after = some s' := by
  rw [run, List.foldlM_append]
  exact Option.bind_eq_some_iff

theorem run_singleton (s : σ) (i : ι) : run step s [i] = step s i := by
  show (step s i).bind some = step s i
  exact Option.bind_fun_some _

/-- Steps under other names. -/
theorem run_map {κ : Type w} (f : κ → ι) (s : σ) (steps : List κ) :
    run step s (steps.map f) = run (fun s k => step s (f k)) s steps :=
  List.foldlM_map

/-- What each of the steps taken keeps holds in the state they lead to. By induction on them. -/
theorem run_invariant_of_mem {Inv : σ → Prop} {steps : List ι}
    (hstep : ∀ i ∈ steps, ∀ s s', Inv s → step s i = some s' → Inv s') :
    ∀ {s s' : σ}, Inv s → run step s steps = some s' → Inv s' := by
  induction steps with
  | nil =>
      intro s s' hs hrun
      cases hrun
      exact hs
  | cons i steps ih =>
      intro s s' hs hrun
      obtain ⟨t, hi, hrest⟩ := run_cons.mp hrun
      have hfirst : Inv t := hstep i List.mem_cons_self s t hs hi
      exact ih (fun j hj => hstep j (List.mem_cons_of_mem i hj)) hfirst hrest

/-- **What every step keeps holds in every state that is reached.** -/
theorem run_invariant {Inv : σ → Prop} (hstep : ∀ s i s', Inv s → step s i = some s' → Inv s')
    {steps : List ι} {s s' : σ} (hs : Inv s) (hrun : run step s steps = some s') : Inv s' :=
  run_invariant_of_mem (fun i _ s s' => hstep s i s') hs hrun

/-! ## The history of a run -/

/-- A step that was taken, with the states before and after it. -/
structure Move (σ : Type u) (ι : Type v) where
  before : σ
  input : ι
  after : σ

/-- The steps of a run. -/
def moves (step : σ → ι → Option σ) (s : σ) : List ι → List (Move σ ι)
  | [] => []
  | i :: steps => (step s i).elim [] fun t => ⟨s, i, t⟩ :: moves step t steps

/-- What relates a state to something that is told of each step relates the last state to a fold
over the history of the run. -/
theorem run_history {α : Type w} {R : σ → α → Prop} {note : α → Move σ ι → α}
    (hstep : ∀ s i t a, R s a → step s i = some t → R t (note a ⟨s, i, t⟩))
    {steps : List ι} {s s' : σ} {a : α} (hs : R s a) (hrun : run step s steps = some s') :
    R s' ((moves step s steps).foldl note a) := by
  induction steps generalizing s a with
  | nil =>
      cases hrun
      exact hs
  | cons i steps ih =>
      obtain ⟨t, hi, hrest⟩ := run_cons.mp hrun
      have hmoves : moves step s (i :: steps) = ⟨s, i, t⟩ :: moves step t steps := by
        simp [moves, hi]
      rw [hmoves, List.foldl_cons]
      exact ih (hstep s i t a hs hi) hrest

/-! ## Steps that use something up -/

/-- Where each step lowers a rank, a run is no longer than its rank. -/
theorem run_length_le {rank : σ → Nat} {steps : List ι}
    (hrank : ∀ i ∈ steps, ∀ s s', step s i = some s' → rank s' < rank s) :
    ∀ {s s' : σ}, run step s steps = some s' → steps.length + rank s' ≤ rank s := by
  induction steps with
  | nil =>
      intro s s' hrun
      cases hrun
      rw [List.length_nil, Nat.zero_add]
  | cons i steps ih =>
      intro s s' hrun
      obtain ⟨t, hi, hrest⟩ := run_cons.mp hrun
      have hfirst : rank t < rank s := hrank i List.mem_cons_self s t hi
      have hothers := ih (fun j hj => hrank j (List.mem_cons_of_mem i hj)) hrest
      rw [List.length_cons]
      omega

/-- **Steps that lower a rank come to an end**: from any state a run of them leads to a state in
which none of them is possible. By induction on the rank. -/
theorem exists_run_settled {rank : σ → Nat} {P : ι → Prop}
    (hrank : ∀ i, P i → ∀ s s', step s i = some s' → rank s' < rank s) (s : σ) :
    ∃ steps s', (∀ i ∈ steps, P i) ∧ run step s steps = some s' ∧
      ∀ i, P i → step s' i = none := by
  induction hn : rank s using Nat.strong_induction_on generalizing s with
  | _ n ih =>
      by_cases hstuck : ∀ i, P i → step s i = none
      · exact ⟨[], s, fun _ h => (List.not_mem_nil h).elim, rfl, hstuck⟩
      · push Not at hstuck
        obtain ⟨i, hi, hne⟩ := hstuck
        obtain ⟨t, ht⟩ := Option.ne_none_iff_exists'.mp hne
        have hlower : rank t < n := by
          rw [← hn]
          exact hrank i hi s t ht
        obtain ⟨steps, s', hsteps, hrun, hend⟩ := ih (rank t) hlower t rfl
        refine ⟨i :: steps, s', ?_, run_cons.mpr ⟨t, ht, hrun⟩, hend⟩
        intro j hj
        rcases List.mem_cons.mp hj with rfl | hj
        · exact hi
        · exact hsteps j hj

end Effect
