import ProvenoOracle.Effect.Fallible
import Mathlib.Data.List.Infix

/-! # Sending a script of events

A computation that reports its progress over a channel: it sends events, calls things that can
fail in between, and stops at the first failure. The receiver may go away at any moment, and from
then on no event is accepted; `limit` is the number of events it has accepted by then, if it
goes.

`Follows` says that such a computation sends a given script of events in order and blames a
failure on the last event that was accepted. Its rules follow the computation from the front
(`Follows.send`, `Follows.sendAll`, `Follows.step`, `Follows.nothing`), and `Follows.reported` is
what a receiver sees in the end.
-/

set_option autoImplicit false

namespace Effect

namespace Script

variable {Event ε δ α : Type}

/-- The receiver is still there after these events. -/
def Open (limit : Option Nat) (log : List Event) : Prop := limit.all (log.length < ·) = true

instance (limit : Option Nat) (log : List Event) : Decidable (Open limit log) :=
  inferInstanceAs (Decidable (limit.all (log.length < ·) = true))

theorem open_none (log : List Event) : Open none log := rfl

/-- Send an event. -/
def send (limit : Option Nat) (closed : ε) (ev : Event) : Fallible (List Event) ε Unit :=
  fun log => if Open limit log then (.ok (), log ++ [ev]) else (.error closed, log)

/-- Send events in order. -/
def sendAll (limit : Option Nat) (closed : ε) : List Event → Fallible (List Event) ε Unit
  | [] => pure ()
  | ev :: rest => do
      send limit closed ev
      sendAll limit closed rest

theorem send_open {limit : Option Nat} {log : List Event} (closed : ε) (ev : Event)
    (h : Open limit log) : send limit closed ev log = (.ok (), log ++ [ev]) := if_pos h

theorem send_closed {limit : Option Nat} {log : List Event} (closed : ε) (ev : Event)
    (h : ¬Open limit log) : send limit closed ev log = (.error closed, log) := if_neg h

/-- **Following a script**: after `done`, the computation sends `todo`. If it stops early it has
sent a part of it, and either the receiver is gone or the error is to blame on the last event. -/
structure Follows (limit : Option Nat) (closed : ε) (blame : Event → ε → Prop)
    (done todo : List Event) (x : Fallible (List Event) ε Unit) : Prop where
  ok : ∀ log, x done = (.ok (), log) → log = done ++ todo
  error : ∀ e log, x done = (.error e, log) → (∃ sent, sent <+: todo ∧ log = done ++ sent) ∧
    ((e = closed ∧ ¬Open limit log) ∨ ∃ ev, log.getLast? = some ev ∧ blame ev e)

section Rules

variable {limit : Option Nat} {closed : ε} {blame : Event → ε → Prop} {done todo : List Event}

theorem Follows.nothing : Follows limit closed blame done [] (pure ()) where
  ok log h := by
    rw [List.append_nil]
    exact (Prod.mk.inj h).2.symm
  error e log h := by cases h

theorem Follows.send {ev : Event} {f : Unit → Fallible (List Event) ε Unit}
    (h : Follows limit closed blame (done ++ [ev]) todo (f ())) :
    Follows limit closed blame done (ev :: todo) (send limit closed ev >>= f) := by
  by_cases hopen : Open limit done
  · have hrest : (Script.send limit closed ev >>= f) done = f () (done ++ [ev]) :=
      Fallible.bind_ok (send_open closed ev hopen)
    refine ⟨?_, ?_⟩
    · intro log hlog
      rw [hrest] at hlog
      rw [h.ok log hlog, List.append_assoc]
      rfl
    · intro e log hlog
      rw [hrest] at hlog
      rcases h.error e log hlog with ⟨⟨sent, hsent, rfl⟩, hwhy⟩
      refine ⟨⟨ev :: sent, (List.prefix_cons_inj ev).mpr hsent, ?_⟩, hwhy⟩
      rw [List.append_assoc]
      rfl
  · -- the receiver is gone: nothing more is sent
    have hstop : (Script.send limit closed ev >>= f) done = (.error closed, done) :=
      Fallible.bind_error (send_closed closed ev hopen)
    refine ⟨?_, ?_⟩
    · intro log hlog
      rw [hstop] at hlog
      cases hlog
    · intro e log hlog
      rw [hstop] at hlog
      obtain ⟨he, rfl⟩ := Prod.mk.inj hlog
      exact ⟨⟨[], List.nil_prefix, (List.append_nil _).symm⟩,
        Or.inl ⟨(Except.error.inj he).symm, hopen⟩⟩

theorem Follows.sendAll {evs : List Event} {f : Unit → Fallible (List Event) ε Unit}
    (h : Follows limit closed blame (done ++ evs) todo (f ())) :
    Follows limit closed blame done (evs ++ todo) (sendAll limit closed evs >>= f) := by
  induction evs generalizing done with
  | nil =>
      rw [List.append_nil] at h
      exact h
  | cons ev rest ih =>
      have hsplit : (Script.sendAll limit closed (ev :: rest) >>= f)
          = Script.send limit closed ev >>= fun _ => Script.sendAll limit closed rest >>= f :=
        Fallible.bind_assoc _ _ _
      rw [hsplit, List.cons_append]
      apply Follows.send
      apply ih
      rwa [List.append_assoc]

/-- A call that can fail, after an event that is to blame. -/
theorem Follows.step {describe : δ → ε} {x : Except δ α}
    {f : α → Fallible (List Event) ε Unit} {ev : Event} (hlast : done.getLast? = some ev)
    (hblame : ∀ d, x = .error d → blame ev (describe d))
    (h : ∀ a, x = .ok a → Follows limit closed blame done todo (f a)) :
    Follows limit closed blame done todo (Fallible.ofExcept describe x >>= f) := by
  cases hx : x with
  | ok a => exact h a hx
  | error d =>
      have hstop : ((Fallible.ofExcept describe (.error d) : Fallible (List Event) ε α) >>= f) done
          = (.error (describe d), done) := Fallible.bind_error rfl
      refine ⟨?_, ?_⟩
      · intro log hlog
        rw [hstop] at hlog
        cases hlog
      · intro e log hlog
        rw [hstop] at hlog
        obtain ⟨he, rfl⟩ := Prod.mk.inj hlog
        rw [← Except.error.inj he]
        exact ⟨⟨[], List.nil_prefix, (List.append_nil _).symm⟩, Or.inr ⟨ev, hlast, hblame d hx⟩⟩

end Rules

/-! ## What the receiver sees -/

/-- Run a computation from the start and report its error as one more event, if the receiver is
still there. -/
def reporting (limit : Option Nat) (toEvent : ε → Event) (x : Fallible (List Event) ε Unit) :
    List Event :=
  match x [] with
  | (.ok (), log) => log
  | (.error e, log) => if Open limit log then log ++ [toEvent e] else log

/-- **What the receiver sees** of a computation that follows a script: a part of the script, all of
it if the receiver stays, or a part of the script and then the error, which comes directly after
an event to blame for it. -/
theorem Follows.reported {limit : Option Nat} {closed : ε} {blame : Event → ε → Prop}
    {script : List Event} {x : Fallible (List Event) ε Unit}
    (h : Follows limit closed blame [] script x) (toEvent : ε → Event) :
    (reporting limit toEvent x <+: script ∧
      (limit = none → reporting limit toEvent x = script)) ∨
    ∃ sent ev e, sent <+: script ∧ sent.getLast? = some ev ∧ blame ev e ∧
      reporting limit toEvent x = sent ++ [toEvent e] := by
  rcases hx : x [] with ⟨e | a, log⟩
  · rcases h.error e log hx with ⟨⟨sent, hsent, hsame⟩, hwhy⟩
    rw [List.nil_append] at hsame
    subst hsame
    have hlog : reporting limit toEvent x
        = if Open limit log then log ++ [toEvent e] else log := by
      rw [reporting, hx]
    -- a receiver that is gone does not see the error
    have hgone : ¬Open limit log → reporting limit toEvent x <+: script ∧
        (limit = none → reporting limit toEvent x = script) := by
      intro hclosed
      rw [hlog, if_neg hclosed]
      refine ⟨hsent, ?_⟩
      rintro rfl
      exact absurd (open_none log) hclosed
    rcases hwhy with ⟨-, hclosed⟩ | ⟨ev, hlast, hblame⟩
    · exact Or.inl (hgone hclosed)
    · by_cases hopen : Open limit log
      · exact Or.inr ⟨log, ev, e, hsent, hlast, hblame, by rw [hlog, if_pos hopen]⟩
      · exact Or.inl (hgone hopen)
  · have hlog : reporting limit toEvent x = script := by
      rw [reporting, hx]
      exact h.ok log hx
    exact Or.inl ⟨by rw [hlog], fun _ => hlog⟩

/-! ## A receiver that goes away earlier -/

/-- **Cutting a computation short**: what it does for a receiver that stays, it does for one that
goes away, up to the event that is not accepted any more. -/
def Cuts (closed : ε) (x : Option Nat → Fallible (List Event) ε α) : Prop :=
  ∀ log, ∃ result sent, x none log = (result, log ++ sent) ∧
    ∀ k, log.length ≤ k → x (some k) log =
      if (log ++ sent).length ≤ k then (result, log ++ sent)
      else (.error closed, (log ++ sent).take k)

theorem open_some {k : Nat} {log : List Event} : Open (some k) log ↔ log.length < k :=
  decide_eq_true_iff

section CutRules

variable {β : Type} {closed : ε}

theorem Cuts.pure (a : α) :
    Cuts closed fun _ => (Pure.pure a : Fallible (List Event) ε α) := by
  intro log
  refine ⟨.ok a, [], by rw [List.append_nil]; rfl, ?_⟩
  intro k hk
  rw [List.append_nil, if_pos hk]
  rfl

theorem Cuts.ofExcept (describe : δ → ε) (x : Except δ α) :
    Cuts closed fun _ => (Fallible.ofExcept describe x : Fallible (List Event) ε α) := by
  cases x with
  | ok a => exact Cuts.pure a
  | error d =>
      intro log
      refine ⟨.error (describe d), [], by rw [List.append_nil]; rfl, ?_⟩
      intro k hk
      rw [List.append_nil, if_pos hk]
      rfl

theorem Cuts.send (ev : Event) : Cuts closed fun limit => send limit closed ev := by
  intro log
  refine ⟨.ok (), [ev], send_open closed ev (open_none log), ?_⟩
  intro k hk
  by_cases hopen : log.length < k
  · have hlength : (log ++ [ev]).length ≤ k := by
      rw [List.length_append, List.length_singleton]
      exact hopen
    rw [if_pos hlength]
    exact send_open closed ev (open_some.mpr hopen)
  · have hfull : log.length = k := Nat.le_antisymm hk (Nat.le_of_not_lt hopen)
    have hlength : ¬(log ++ [ev]).length ≤ k := by
      rw [List.length_append, List.length_singleton]
      omega
    rw [if_neg hlength, List.take_left' hfull]
    exact send_closed closed ev (mt open_some.mp hopen)

theorem Cuts.bind {x : Option Nat → Fallible (List Event) ε α}
    {f : Option Nat → α → Fallible (List Event) ε β} (hx : Cuts closed x)
    (hf : ∀ a, Cuts closed fun limit => f limit a) :
    Cuts closed fun limit => x limit >>= f limit := by
  intro log
  obtain ⟨result, sent, hstays, hgoes⟩ := hx log
  cases result with
  | error e =>
      refine ⟨.error e, sent, Fallible.bind_error hstays, ?_⟩
      intro k hk
      have hcut := hgoes k hk
      split
      · rename_i hlength
        rw [if_pos hlength] at hcut
        exact Fallible.bind_error hcut
      · rename_i hlength
        rw [if_neg hlength] at hcut
        exact Fallible.bind_error hcut
  | ok a =>
      obtain ⟨result, sent', hstays', hgoes'⟩ := hf a (log ++ sent)
      refine ⟨result, sent ++ sent', ?_, ?_⟩
      · rw [← List.append_assoc]
        exact (Fallible.bind_ok hstays).trans hstays'
      · intro k hk
        have hcut := hgoes k hk
        rw [← List.append_assoc]
        by_cases hlength : (log ++ sent).length ≤ k
        · rw [if_pos hlength] at hcut
          exact (Fallible.bind_ok hcut).trans (hgoes' k hlength)
        · -- the receiver is gone before the second part
          have hmore : ¬(log ++ sent ++ sent').length ≤ k := by
            rw [List.length_append]
            omega
          rw [if_neg hlength] at hcut
          rw [if_neg hmore, List.take_append_of_le_length (Nat.le_of_not_le hlength)]
          exact Fallible.bind_error hcut

theorem Cuts.sendAll (evs : List Event) : Cuts closed fun limit => sendAll limit closed evs := by
  induction evs with
  | nil => exact Cuts.pure ()
  | cons ev rest ih => exact (Cuts.send ev).bind fun _ => ih

/-- **A receiver that goes away after `k` events has seen the first `k` of those that it would have
seen.** -/
theorem Cuts.reporting {x : Option Nat → Fallible (List Event) ε Unit} (hx : Cuts closed x)
    (toEvent : ε → Event) (k : Nat) :
    reporting (some k) toEvent (x (some k)) = (reporting none toEvent (x none)).take k := by
  obtain ⟨result, sent, hstays, hgoes⟩ := hx []
  have hcut := hgoes k (Nat.zero_le k)
  rw [List.nil_append] at hstays hcut
  unfold Script.reporting
  rw [hstays, hcut]
  by_cases hlength : sent.length ≤ k
  · rw [if_pos hlength]
    cases result with
    | ok _ => exact (List.take_of_length_le hlength).symm
    | error e =>
        show (if Open (some k) sent then sent ++ [toEvent e] else sent)
          = (sent ++ [toEvent e]).take k
        by_cases hopen : sent.length < k
        · rw [if_pos (open_some.mpr hopen), List.take_of_length_le]
          rw [List.length_append, List.length_singleton]
          exact hopen
        · -- the error itself comes too late
          rw [if_neg (mt open_some.mp hopen),
            List.take_left' (Nat.le_antisymm hlength (Nat.le_of_not_lt hopen))]
  · rw [if_neg hlength]
    have hlate : ¬Open (some k) (sent.take k) := by
      intro h
      have hshort : (sent.take k).length < k := open_some.mp h
      rw [List.length_take] at hshort
      omega
    show (if Open (some k) (sent.take k) then sent.take k ++ [toEvent closed] else sent.take k) = _
    rw [if_neg hlate]
    cases result with
    | ok _ => rfl
    | error e =>
        exact (List.take_append_of_le_length (Nat.le_of_not_le hlength)).symm

end CutRules

end Script

end Effect
