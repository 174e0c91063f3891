import Mathlib.Tactic

/-! # Adaptive clients

A client asks a server one query after another, and chooses each query by the answers to the ones
before it. The server has a state, its answers may depend on how many queries there were before,
and it may crash, which ends the interaction.

There is one rule for each way to follow such an interaction: along a view of the state that
every query changes in a known way (`interact_foldl`), beside another server that gives the same
answers (`interact_congr`), and up to one of its queries (`interact_at`).
-/

set_option autoImplicit false

namespace Effect

section Interact

variable {Q A S T : Type}

/-- The client's choice: the next query after some answers, if there is one. -/
abbrev Client (Q A : Type) : Type := List A → Option Q

/-- The server: the answer to the `i`-th query, unless it crashes, and the state after it. -/
abbrev Serve (S Q A : Type) : Type := Nat → S → Q → Option A × S

/-- At most `n` more queries, after the answers in `seen`: the queries with their answers, and the
state that the server is left in. -/
def interactFrom (serve : Serve S Q A) (client : Client Q A) :
    Nat → List A → S → List (Q × Option A) × S
  | 0, _, s => ([], s)
  | n + 1, seen, s =>
      match client seen with
      | none => ([], s)
      | some q =>
          match serve seen.length s q with
          | (none, s') => ([(q, none)], s')
          | (some a, s') =>
              let (rest, s'') := interactFrom serve client n (seen ++ [a]) s'
              ((q, some a) :: rest, s'')

/-- An interaction of at most `n` queries. -/
def interact (serve : Serve S Q A) (client : Client Q A) (n : Nat) (s : S) :
    List (Q × Option A) × S :=
  interactFrom serve client n [] s

variable {serve : Serve S Q A} {client : Client Q A}

theorem interactFrom_done {n : Nat} {seen : List A} {s : S} (h : client seen = none) :
    interactFrom serve client (n + 1) seen s = ([], s) := by
  simp only [interactFrom, h]

theorem interactFrom_crash {n : Nat} {seen : List A} {s s' : S} {q : Q}
    (h : client seen = some q) (hserve : serve seen.length s q = (none, s')) :
    interactFrom serve client (n + 1) seen s = ([(q, none)], s') := by
  simp only [interactFrom, h, hserve]

theorem interactFrom_answer {n : Nat} {seen : List A} {s s' : S} {q : Q} {a : A}
    (h : client seen = some q) (hserve : serve seen.length s q = (some a, s')) :
    interactFrom serve client (n + 1) seen s
      = ((q, some a) :: (interactFrom serve client n (seen ++ [a]) s').1,
        (interactFrom serve client n (seen ++ [a]) s').2) := by
  simp only [interactFrom, h, hserve]

/-- **A view that every query changes in a known way** is changed by the queries in order. By
induction on the number of queries. -/
theorem interact_foldl {V : Type} {view : S → V} {change : V → Q → V}
    (h : ∀ i s q, view (serve i s q).2 = change (view s) q) (n : Nat) (s : S) :
    view (interact serve client n s).2
      = ((interact serve client n s).1.map Prod.fst).foldl change (view s) := by
  suffices hfrom : ∀ (n : Nat) (seen : List A) (s : S),
      view (interactFrom serve client n seen s).2
        = ((interactFrom serve client n seen s).1.map Prod.fst).foldl change (view s) from
    hfrom n [] s
  intro n
  induction n with
  | zero => exact fun _ _ => rfl
  | succ n ih =>
      intro seen s
      cases hq : client seen with
      | none => rw [interactFrom_done hq]; rfl
      | some q =>
          have hview := h seen.length s q
          rcases hserve : serve seen.length s q with ⟨- | a, s'⟩
          · rw [hserve] at hview
            rw [interactFrom_crash hq hserve]
            exact hview
          · rw [hserve] at hview
            rw [interactFrom_answer hq hserve]
            show view (interactFrom serve client n (seen ++ [a]) s').2 = _
            rw [ih, show view s' = change (view s) q from hview]
            rfl

/-- **Servers that answer alike** cannot be told apart by any client: they get the same queries
and stay related. -/
theorem interact_congr {serve' : Serve T Q A} {R : S → T → Prop}
    (h : ∀ i s t q, R s t → (serve i s q).1 = (serve' i t q).1 ∧ R (serve i s q).2 (serve' i t q).2)
    (n : Nat) {s : S} {t : T} (hst : R s t) :
    (interact serve client n s).1 = (interact serve' client n t).1 ∧
      R (interact serve client n s).2 (interact serve' client n t).2 := by
  suffices hfrom : ∀ (n : Nat) (seen : List A) (s : S) (t : T), R s t →
      (interactFrom serve client n seen s).1 = (interactFrom serve' client n seen t).1 ∧
        R (interactFrom serve client n seen s).2 (interactFrom serve' client n seen t).2 from
    hfrom n [] s t hst
  intro n
  induction n with
  | zero => exact fun _ _ _ hst => ⟨rfl, hst⟩
  | succ n ih =>
      intro seen s t hst
      cases hq : client seen with
      | none =>
          rw [interactFrom_done hq, interactFrom_done hq]
          exact ⟨rfl, hst⟩
      | some q =>
          obtain ⟨hanswer, hrel⟩ := h seen.length s t q hst
          rcases hserve : serve seen.length s q with ⟨- | a, s'⟩ <;>
            rcases hserve' : serve' seen.length t q with ⟨- | a', t'⟩ <;>
            rw [hserve, hserve'] at hanswer hrel
          · rw [interactFrom_crash hq hserve, interactFrom_crash hq hserve']
            exact ⟨rfl, hrel⟩
          · cases hanswer
          · cases hanswer
          · obtain rfl := Option.some.inj hanswer
            obtain ⟨hrest, hlast⟩ := ih (seen ++ [a]) s' t' hrel
            rw [interactFrom_answer hq hserve, interactFrom_answer hq hserve']
            exact ⟨congrArg _ hrest, hlast⟩

/-- **A longer interaction goes on from a shorter one**: its `i`-th query is the client's choice
after `i` answers, and meets the server as the interaction of `i` queries has left it. -/
theorem interact_at {n i : Nat} {s : S} {q : Q} {a : Option A}
    (h : (interact serve client n s).1[i]? = some (q, a)) :
    (interact serve client i s).1 = (interact serve client n s).1.take i ∧
      (serve i (interact serve client i s).2 q).1 = a ∧
      ∃ seen, seen.length = i ∧ client seen = some q := by
  suffices hfrom : ∀ (n i : Nat) (seen : List A) (s : S),
      (interactFrom serve client n seen s).1[i]? = some (q, a) →
      (interactFrom serve client i seen s).1 = (interactFrom serve client n seen s).1.take i ∧
        (serve (seen.length + i) (interactFrom serve client i seen s).2 q).1 = a ∧
        ∃ seen', seen'.length = seen.length + i ∧ client seen' = some q by
    have hstart := hfrom n i [] s h
    rw [List.length_nil, Nat.zero_add] at hstart
    exact hstart
  intro n
  induction n with
  | zero =>
      intro i seen s h
      simp [interactFrom] at h
  | succ n ih =>
      intro i seen s h
      cases hq : client seen with
      | none => simp [interactFrom_done hq] at h
      | some q' =>
          rcases hserve : serve seen.length s q' with ⟨- | a', s'⟩
          · rw [interactFrom_crash hq hserve] at h ⊢
            cases i with
            | zero =>
                obtain ⟨rfl, rfl⟩ : q' = q ∧ none = a := by simpa using h
                exact ⟨rfl, congrArg Prod.fst hserve, seen, rfl, hq⟩
            | succ i => simp at h
          · rw [interactFrom_answer hq hserve] at h ⊢
            cases i with
            | zero =>
                obtain ⟨rfl, rfl⟩ : q' = q ∧ some a' = a := by simpa using h
                exact ⟨rfl, congrArg Prod.fst hserve, seen, rfl, hq⟩
            | succ i =>
                obtain ⟨hfront, hlast, hasked⟩ := ih i (seen ++ [a']) s' (by simpa using h)
                have hlength : (seen ++ [a']).length + i = seen.length + (i + 1) := by
                  rw [List.length_append, List.length_singleton]
                  omega
                rw [hlength] at hlast hasked
                rw [interactFrom_answer hq hserve]
                exact ⟨congrArg _ hfront, hlast, hasked⟩

/-- **A log**: where every query adds its entries to the log, the log holds those of the queries in
order. -/
theorem interact_log {E : Type} {log : S → List E} {adds : Q → List E}
    (h : ∀ i s q, log (serve i s q).2 = log s ++ adds q) (n : Nat) (s : S) :
    log (interact serve client n s).2
      = log s ++ (interact serve client n s).1.flatMap fun x => adds x.1 := by
  have hfold : log (interact serve client n s).2
      = ((interact serve client n s).1.map Prod.fst).foldl (fun l q => l ++ adds q) (log s) :=
    interact_foldl h n s
  rw [hfold]
  generalize (interact serve client n s).1 = transcript
  generalize log s = entries
  induction transcript generalizing entries with
  | nil => simp
  | cons x transcript ih => simp [ih]

end Interact

end Effect
