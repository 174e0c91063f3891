import ProvenoOracle.Effect.Guarded

/-! # Jobs under permits

A pool has a number of permits. It admits a job while a permit is free, the job holds the permit
until it has ended, and jobs take steps of their own in any order. No permit is lost or given out
twice (`Pool.conserved`), and each job goes the way it would go alone (`Pool.job_run`).
-/

set_option autoImplicit false

namespace Effect

universe u v

/-- A kind of job: its steps, and whether it still holds its permit. -/
structure JobKind (σ : Type u) (μ : Type v) where
  step : σ → μ → Option σ
  holds : σ → Bool
  /-- A job that has ended does not start again. -/
  ended : ∀ {s m s'}, step s m = some s' → holds s = false → holds s' = false

/-- Permits that are free, and the jobs that were admitted. -/
structure Pool (σ : Type u) where
  permits : Nat
  jobs : List σ

/-- What happens to a pool: a job arrives, or a job takes a step. -/
inductive PoolStep (σ : Type u) (μ : Type v) where
  | arrive (job : σ)
  | move (i : Nat) (m : μ)

namespace Pool

variable {σ : Type u} {μ : Type v}

/-- A pool without jobs. -/
def start (permits : Nat) : Pool σ := ⟨permits, []⟩

/-- Admit a job if a permit is free. -/
def accept (p : Pool σ) (job : σ) : Option (Pool σ) :=
  if p.permits = 0 then none else some ⟨p.permits - 1, p.jobs ++ [job]⟩

/-- A step of a job, which gives its permit back when the job ends. -/
def move (K : JobKind σ μ) (p : Pool σ) (i : Nat) (m : μ) : Option (Pool σ) := do
  let job ← p.jobs[i]?
  let job' ← K.step job m
  let permits := if K.holds job && !K.holds job' then p.permits + 1 else p.permits
  return ⟨permits, p.jobs.set i job'⟩

/-- One step. A job that is not admitted leaves the pool as it is. -/
def step (K : JobKind σ μ) (p : Pool σ) : PoolStep σ μ → Option (Pool σ)
  | .arrive job => some ((p.accept job).getD p)
  | .move i m => p.move K i m

variable {K : JobKind σ μ} {p p' : Pool σ}

theorem accept_cases (p : Pool σ) (job : σ) :
    (p.permits = 0 ∧ (p.accept job).getD p = p) ∨
      (0 < p.permits ∧ (p.accept job).getD p = ⟨p.permits - 1, p.jobs ++ [job]⟩) := by
  by_cases hfree : p.permits = 0
  · refine Or.inl ⟨hfree, ?_⟩
    rw [accept, if_pos hfree, Option.getD_none]
  · refine Or.inr ⟨Nat.pos_of_ne_zero hfree, ?_⟩
    rw [accept, if_neg hfree, Option.getD_some]

theorem move_eq_some {i : Nat} {m : μ} (h : p.move K i m = some p') :
    ∃ job job', p.jobs[i]? = some job ∧ K.step job m = some job' ∧
      p'.permits = (if K.holds job && !K.holds job' then p.permits + 1 else p.permits) ∧
      p'.jobs = p.jobs.set i job' := by
  obtain ⟨job, hjob, h⟩ := Option.bind_eq_some_iff.mp h
  obtain ⟨job', hstep, h⟩ := Option.bind_eq_some_iff.mp h
  cases h
  exact ⟨job, job', hjob, hstep, rfl, rfl⟩

theorem move_eq_none {i : Nat} {m : μ} {job : σ} (hjob : p.jobs[i]? = some job)
    (h : p.move K i m = none) : K.step job m = none := by
  cases hstep : K.step job m with
  | none => rfl
  | some job' =>
      rw [move, hjob] at h
      simp [hstep] at h

/-- A job in the pool, and what is around it. -/
theorem exists_set {jobs : List σ} {i : Nat} {job : σ} (h : jobs[i]? = some job) :
    ∃ before after, jobs = before ++ job :: after ∧
      ∀ job', jobs.set i job' = before ++ job' :: after := by
  obtain ⟨hi, rfl⟩ := List.getElem?_eq_some_iff.mp h
  refine ⟨jobs.take i, jobs.drop (i + 1), ?_, ?_⟩
  · rw [List.getElem_cons_drop, List.take_append_drop]
  · intro job'
    rw [List.set_eq_take_append_cons_drop, if_pos hi]

/-! ## Permits -/

/-- One step keeps the number of permits that are free or held. -/
theorem conserved_step {total : Nat} {s : PoolStep σ μ}
    (hfresh : ∀ job, s = .arrive job → K.holds job = true)
    (hp : p.permits + p.jobs.countP K.holds = total) (hstep : step K p s = some p') :
    p'.permits + p'.jobs.countP K.holds = total := by
  cases s with
  | arrive job =>
      obtain rfl := Option.some.inj hstep
      rcases accept_cases p job with ⟨-, hsame⟩ | ⟨hfree, haccept⟩
      · rwa [hsame]
      · rw [haccept]
        show p.permits - 1 + (p.jobs ++ [job]).countP K.holds = total
        rw [List.countP_append, List.countP_singleton, if_pos (hfresh job rfl)]
        omega
  | move i m =>
      obtain ⟨job, job', hjob, hmove, hpermits, hjobs⟩ := move_eq_some hstep
      obtain ⟨before, after, hsplit, hset⟩ := exists_set hjob
      have hended := K.ended hmove
      rw [hsplit, List.countP_append, List.countP_cons] at hp
      rw [hpermits, hjobs, hset, List.countP_append, List.countP_cons]
      cases hold : K.holds job with
      | false =>
          rw [hold] at hp
          simp only [hended hold, Bool.false_and, Bool.false_eq_true, if_false] at hp ⊢
          exact hp
      | true =>
          rw [hold] at hp
          -- the permit comes back with the last step of the job
          cases hnew : K.holds job' with
          | true =>
              simp only [Bool.not_true, Bool.and_false, Bool.false_eq_true, if_false, if_true]
                at hp ⊢
              omega
          | false =>
              simp only [Bool.not_false, Bool.and_true, Bool.false_eq_true, if_false, if_true]
                at hp ⊢
              omega

/-- **No permit is lost or given out twice**, in any order of arrivals and steps. -/
theorem conserved {total : Nat} {steps : List (PoolStep σ μ)}
    (hfresh : ∀ job, .arrive job ∈ steps → K.holds job = true)
    (hrun : run (step K) (start total) steps = some p) :
    p.permits + p.jobs.countP K.holds = total := by
  have hstart :
      (start total : Pool σ).permits + (start total : Pool σ).jobs.countP K.holds = total := rfl
  have hkeep : ∀ s ∈ steps, ∀ q q' : Pool σ, q.permits + q.jobs.countP K.holds = total →
      step K q s = some q' → q'.permits + q'.jobs.countP K.holds = total := by
    intro s hs q q' hq hstep
    exact conserved_step (fun job hjob => hfresh job (hjob ▸ hs)) hq hstep
  exact run_invariant_of_mem hkeep hstart hrun

/-! ## Jobs -/

/-- The steps of one of the jobs. -/
def movesOf (i : Nat) (steps : List (PoolStep σ μ)) : List μ :=
  steps.filterMap fun
    | .arrive _ => none
    | .move j m => if j = i then some m else none

theorem movesOf_append (i : Nat) (before after : List (PoolStep σ μ)) :
    movesOf i (before ++ after) = movesOf i before ++ movesOf i after :=
  List.filterMap_append

/-- The number of jobs. -/
theorem step_length {s : PoolStep σ μ} (h : step K p s = some p') :
    p.jobs.length ≤ p'.jobs.length := by
  cases s with
  | arrive job =>
      obtain rfl := Option.some.inj h
      rcases accept_cases p job with ⟨-, hsame⟩ | ⟨-, haccept⟩
      · rw [hsame]
      · rw [haccept, List.length_append]
        exact Nat.le_add_right _ _
  | move i m =>
      obtain ⟨_, _, _, _, _, hjobs⟩ := move_eq_some h
      rw [hjobs, List.length_set]

/-- A job that is not there yet has not taken a step. By induction from the last step. -/
theorem movesOf_eq_nil {steps : List (PoolStep σ μ)} {i : Nat} {p₀ : Pool σ} :
    ∀ {p : Pool σ}, run (step K) p₀ steps = some p → p.jobs.length ≤ i → movesOf i steps = [] := by
  induction steps using List.reverseRecOn with
  | nil => exact fun _ _ => rfl
  | append_singleton steps s ih =>
      intro p hrun hi
      obtain ⟨q, hbefore, hlast⟩ := run_append.mp hrun
      rw [run_singleton] at hlast
      have hq : q.jobs.length ≤ i := (step_length hlast).trans hi
      rw [movesOf_append, ih hbefore hq, List.nil_append]
      cases s with
      | arrive job => rfl
      | move j m =>
          obtain ⟨job, -, hjob, -, -, -⟩ := move_eq_some hlast
          have hj : j < q.jobs.length := (List.getElem?_eq_some_iff.mp hjob).1
          have hne : j ≠ i := by omega
          show List.filterMap _ [PoolStep.move j m] = []
          simp [hne]

/-- **Each job goes its own way**: it has arrived, and what has become of it since comes from its
own steps alone, whatever the others have done in between. By induction from the last step. -/
theorem job_run {steps : List (PoolStep σ μ)} {total i : Nat} {job : σ} :
    ∀ {p : Pool σ}, run (step K) (start total) steps = some p → p.jobs[i]? = some job →
      ∃ fresh, .arrive fresh ∈ steps ∧ run K.step fresh (movesOf i steps) = some job := by
  induction steps using List.reverseRecOn generalizing job with
  | nil =>
      intro p hrun hjob
      cases hrun
      cases hjob
  | append_singleton steps s ih =>
      intro p hrun hjob
      obtain ⟨q, hbefore, hlast⟩ := run_append.mp hrun
      rw [run_singleton] at hlast
      -- a job that was there before, and what the last step adds to its own steps
      have hold : ∀ old, q.jobs[i]? = some old → run K.step old (movesOf i [s]) = some job →
          ∃ fresh, .arrive fresh ∈ steps ++ [s] ∧
            run K.step fresh (movesOf i (steps ++ [s])) = some job := by
        intro old hthere hmoves
        obtain ⟨fresh, hfresh, hway⟩ := ih hbefore hthere
        refine ⟨fresh, List.mem_append_left _ hfresh, ?_⟩
        rw [movesOf_append]
        exact run_append.mpr ⟨old, hway, hmoves⟩
      cases s with
      | arrive fresh =>
          obtain rfl := Option.some.inj hlast
          rcases accept_cases q fresh with ⟨-, hsame⟩ | ⟨-, haccept⟩
          · rw [hsame] at hjob
            exact hold job hjob rfl
          · rw [haccept] at hjob
            rcases Nat.lt_or_ge i q.jobs.length with hi | hi
            · have hthere : q.jobs[i]? = some job := by
                rwa [List.getElem?_append_left hi] at hjob
              exact hold job hthere rfl
            · -- the job that has just been admitted
              have hnew : [fresh][i - q.jobs.length]? = some job := by
                rwa [List.getElem?_append_right hi] at hjob
              obtain ⟨-, rfl⟩ : i - q.jobs.length = 0 ∧ fresh = job := by
                rwa [List.getElem?_singleton, Option.ite_none_right_eq_some, Option.some.injEq]
                  at hnew
              refine ⟨fresh, List.mem_append_right _ (List.mem_singleton_self _), ?_⟩
              rw [movesOf_append, movesOf_eq_nil hbefore hi]
              rfl
      | move j m =>
          obtain ⟨old, new, hthere, hmove, -, hjobs⟩ := move_eq_some hlast
          rw [hjobs, List.getElem?_set] at hjob
          by_cases hj : j = i
          · subst hj
            have hlength : j < q.jobs.length := (List.getElem?_eq_some_iff.mp hthere).1
            rw [if_pos rfl, if_pos hlength] at hjob
            obtain rfl := Option.some.inj hjob
            apply hold old hthere
            have hown : movesOf j ([.move j m] : List (PoolStep σ μ)) = [m] := by
              simp [movesOf]
            rw [hown, run_singleton, hmove]
          · rw [if_neg hj] at hjob
            apply hold job hjob
            have hother : movesOf i ([.move j m] : List (PoolStep σ μ)) = [] := by
              simp [movesOf, hj]
            rw [hother, run_nil]

/-- What every step of a job keeps holds of every job. -/
theorem jobs_invariant {Inv : σ → Prop} {total : Nat} {steps : List (PoolStep σ μ)}
    (hfresh : ∀ job, .arrive job ∈ steps → Inv job)
    (hstep : ∀ s m s', Inv s → K.step s m = some s' → Inv s')
    (hrun : run (step K) (start total) steps = some p) : ∀ job ∈ p.jobs, Inv job := by
  intro job hjob
  obtain ⟨i, hi⟩ := List.mem_iff_getElem?.mp hjob
  obtain ⟨fresh, harrive, hway⟩ := job_run hrun hi
  exact run_invariant hstep (hfresh fresh harrive) hway

/-! ## Ranks -/

/-- The rank of all jobs together. -/
def rank (r : σ → Nat) (p : Pool σ) : Nat := (p.jobs.map r).sum

/-- A step that lowers the rank of its job lowers the rank of the pool. -/
theorem rank_lt {r : σ → Nat} {i : Nat} {m : μ}
    (hr : ∀ s s', K.step s m = some s' → r s' < r s) (h : p.move K i m = some p') :
    p'.rank r < p.rank r := by
  obtain ⟨job, job', hjob, hmove, -, hjobs⟩ := move_eq_some h
  obtain ⟨before, after, hsplit, hset⟩ := exists_set hjob
  have hlower : r job' < r job := hr job job' hmove
  rw [rank, rank, hjobs, hset, hsplit]
  simp only [List.map_append, List.map_cons, List.sum_append, List.sum_cons]
  omega

end Pool

end Effect
