import Mathlib.Tactic

/-! # Timers

The timers of an event loop. To set one gives a handle that no timer has had before, a timer that
has been cleared does not go off, and an interval is set again when it goes off.

A program that keeps the handle of each of its callbacks in a slot of its own has an alarm for each
of them: the callback is set for one time, or for none. `Schedules` says that the slots and the
timers stand for such alarms, and each operation on them changes one alarm.
-/

set_option autoImplicit false

namespace Effect

/-- A timer: what it calls, when it goes off, and after what time it does again. -/
structure Timer (κ : Type) where
  call : κ
  due : Nat
  every : Option Nat

/-- The live timers by their handles. -/
structure Timers (κ : Type) where
  next : Nat
  live : Nat → Option (Timer κ)
  fresh : ∀ h, next ≤ h → live h = none

namespace Timers

variable {κ : Type}

/-- No timer. Handles start at one. -/
def empty (κ : Type) : Timers κ := ⟨1, fun _ => none, fun _ _ => rfl⟩

/-- A new timer, and its handle. -/
def add (T : Timers κ) (timer : Timer κ) : Timers κ × Nat :=
  ({ next := T.next + 1
     live := Function.update T.live T.next (some timer)
     fresh := by
       intro h hh
       rw [Function.update_of_ne (by omega)]
       exact T.fresh h (by omega) }, T.next)

/-- Without the timer of a handle. -/
def clear (T : Timers κ) (handle : Nat) : Timers κ where
  next := T.next
  live := Function.update T.live handle none
  fresh := by
    intro h hh
    by_cases hcleared : h = handle
    · simp [hcleared]
    · rw [Function.update_of_ne hcleared]
      exact T.fresh h hh

/-- Without the timer of the handle in a slot. -/
def clearSlot (T : Timers κ) : Option Nat → Timers κ
  | none => T
  | some handle => T.clear handle

/-- The timer of a handle goes off at another time. -/
def rearm (T : Timers κ) (handle due : Nat) : Timers κ where
  next := T.next
  live := Function.update T.live handle ((T.live handle).map ({ · with due := due }))
  fresh := by
    intro h hh
    by_cases hrearmed : h = handle
    · subst hrearmed
      simp [T.fresh h hh]
    · rw [Function.update_of_ne hrearmed]
      exact T.fresh h hh

/-- A timer that is due goes off: what it calls, and the timers that are left. -/
def fire (T : Timers κ) (handle now : Nat) : Option (κ × Timers κ) :=
  match T.live handle with
  | none => none
  | some timer =>
      if timer.due ≤ now then
        match timer.every with
        | none => some (timer.call, T.clear handle)
        | some period => some (timer.call, T.rearm handle (now + period))
      else none

end Timers

/-! ## Alarms -/

/-- The slots hold the handles of the live timers, one for each callback that is set for a time. -/
structure Schedules {κ : Type} (period slots : κ → Option Nat) (T : Timers κ)
    (alarms : κ → Option Nat) : Prop where
  none_iff : ∀ k, slots k = none ↔ alarms k = none
  live_iff : ∀ h timer, T.live h = some timer ↔
    slots timer.call = some h ∧ alarms timer.call = some timer.due ∧
      timer.every = period timer.call

namespace Schedules

open Timers

variable {κ : Type} {period slots alarms : κ → Option Nat} {T : Timers κ}

theorem empty (period : κ → Option Nat) :
    Schedules period (fun _ => none) (Timers.empty κ) fun _ => none := by
  constructor <;> simp [Timers.empty]

/-- The timer of an alarm. -/
theorem live_of_alarm (hs : Schedules period slots T alarms) {k : κ} {due : Nat}
    (hk : alarms k = some due) : ∃ h, slots k = some h ∧ T.live h = some ⟨k, due, period k⟩ := by
  have hset : slots k ≠ none := by
    rw [ne_eq, hs.none_iff, hk]
    simp
  obtain ⟨h, hh⟩ := Option.ne_none_iff_exists'.mp hset
  exact ⟨h, hh, (hs.live_iff h _).mpr ⟨hh, hk, rfl⟩⟩

/-- The callback of the handle in a slot. -/
theorem live_of_slot (hs : Schedules period slots T alarms) {k : κ} {h : Nat}
    (hk : slots k = some h) : ∃ due, alarms k = some due ∧ T.live h = some ⟨k, due, period k⟩ := by
  have hset : alarms k ≠ none := by
    rw [ne_eq, ← hs.none_iff, hk]
    simp
  obtain ⟨due, hdue⟩ := Option.ne_none_iff_exists'.mp hset
  exact ⟨due, hdue, (hs.live_iff h _).mpr ⟨hk, hdue, rfl⟩⟩

/-- A handle stands in one slot only. -/
theorem slot_inj (hs : Schedules period slots T alarms) {k k' : κ} {h : Nat}
    (hk : slots k = some h) (hk' : slots k' = some h) : k = k' := by
  obtain ⟨due, -, hlive⟩ := hs.live_of_slot hk
  obtain ⟨due', -, hlive'⟩ := hs.live_of_slot hk'
  rw [hlive] at hlive'
  exact congrArg Timer.call (Option.some.inj hlive')

variable [DecidableEq κ]

/-- Setting a timer for a callback that has none. -/
theorem add (hs : Schedules period slots T alarms) {k : κ} (hk : slots k = none) (due : Nat) :
    Schedules period (Function.update slots k (some T.next)) (T.add ⟨k, due, period k⟩).1
      (Function.update alarms k (some due)) := by
  have hunused : ∀ k', slots k' ≠ some T.next := by
    intro k' hk'
    obtain ⟨due', -, hlive⟩ := hs.live_of_slot hk'
    rw [T.fresh T.next le_rfl] at hlive
    cases hlive
  constructor
  · intro k'
    by_cases hkk : k' = k
    · simp [hkk]
    · simpa [hkk] using hs.none_iff k'
  · rintro h ⟨k', due', every⟩
    by_cases hnew : h = T.next
    · by_cases hkk : k' = k
      · simp [Timers.add, hkk, hnew, eq_comm]
      · simp [Timers.add, hkk, hnew, hunused k', Ne.symm hkk]
    · have hold := hs.live_iff h ⟨k', due', every⟩
      by_cases hkk : k' = k
      · simp_all [Timers.add, eq_comm]
      · simpa [Timers.add, hnew, hkk] using hold

/-- Clearing the timer of a callback, if it has one. -/
theorem clearSlot (hs : Schedules period slots T alarms) (k : κ) :
    Schedules period (Function.update slots k none) (T.clearSlot (slots k))
      (Function.update alarms k none) := by
  constructor
  · intro k'
    by_cases hkk : k' = k
    · simp [hkk]
    · simpa [hkk] using hs.none_iff k'
  · rintro h ⟨k', due, every⟩
    have hold := hs.live_iff h ⟨k', due, every⟩
    cases hslot : slots k with
    | none =>
        by_cases hkk : k' = k
        · simp_all [Timers.clearSlot]
        · simpa [Timers.clearSlot, hkk] using hold
    | some handle =>
        by_cases hh : h = handle
        · have hother : k' ≠ k → slots k' ≠ some handle := fun hne hk' =>
            hne (hs.slot_inj hk' hslot)
          by_cases hkk : k' = k
          · simp [Timers.clearSlot, Timers.clear, hkk, hh]
          · simp [Timers.clearSlot, Timers.clear, hkk, hh, hother hkk]
        · by_cases hkk : k' = k
          · simp_all [Timers.clearSlot, Timers.clear, eq_comm]
          · simpa [Timers.clearSlot, Timers.clear, hkk, hh] using hold

/-- Clearing the timers of some callbacks, by induction on them. -/
theorem clearSlots (hs : Schedules period slots T alarms) {keys : List κ} (hkeys : keys.Nodup) :
    Schedules period (fun k => if k ∈ keys then none else slots k)
      (keys.foldl (fun T k => T.clearSlot (slots k)) T)
      fun k => if k ∈ keys then none else alarms k := by
  induction keys generalizing slots alarms T with
  | nil => simpa using hs
  | cons k keys ih =>
      have hk : k ∉ keys := (List.nodup_cons.mp hkeys).1
      have hrest := ih (hs.clearSlot k) (List.nodup_cons.mp hkeys).2
      have hthere : ∀ f : κ → Option Nat,
          (fun k' => if k' ∈ keys then none else Function.update f k none k')
            = fun k' => if k' ∈ k :: keys then none else f k' := by
        intro f
        funext k'
        by_cases hkk : k' = k <;> by_cases hmem : k' ∈ keys <;> simp [hkk, hmem]
      have hsame : keys.foldl (fun T k' => T.clearSlot (Function.update slots k none k'))
            (T.clearSlot (slots k))
          = keys.foldl (fun T k' => T.clearSlot (slots k')) (T.clearSlot (slots k)) := by
        apply List.foldl_ext
        intro T' k' hk'
        have hne : k' ≠ k := fun h => hk (h ▸ hk')
        rw [Function.update_of_ne hne]
      rw [hthere, hthere, hsame] at hrest
      exact hrest

/-- Moving the timer of a callback to another time. -/
theorem rearm (hs : Schedules period slots T alarms) {k : κ} {handle : Nat}
    (hk : slots k = some handle) (due : Nat) :
    Schedules period slots (T.rearm handle due) (Function.update alarms k (some due)) := by
  obtain ⟨old, -, hlive⟩ := hs.live_of_slot hk
  constructor
  · intro k'
    by_cases hkk : k' = k
    · simp [hkk, hk]
    · simpa [hkk] using hs.none_iff k'
  · rintro h ⟨k', due', every⟩
    by_cases hh : h = handle
    · by_cases hkk : k' = k
      · simp [Timers.rearm, hh, hkk, hlive, hk, eq_comm]
      · have hother : slots k' ≠ some handle := fun hk' => hkk (hs.slot_inj hk' hk)
        simp [Timers.rearm, hh, hlive, hother, Ne.symm hkk]
    · have hold := hs.live_iff h ⟨k', due', every⟩
      by_cases hkk : k' = k
      · simp_all [Timers.rearm, eq_comm]
      · simpa [Timers.rearm, hh, hkk] using hold

/-- A timer that goes off is the one of its callback's alarm, which was due; a timeout's alarm is
off then, and an interval's is set again. -/
theorem fire (hs : Schedules period slots T alarms) {h now : Nat} {k : κ} {T' : Timers κ}
    (hfire : T.fire h now = some (k, T')) :
    (∃ due ≤ now, alarms k = some due) ∧
      match period k with
      | none => Schedules period (Function.update slots k none) T' (Function.update alarms k none)
      | some p => Schedules period slots T' (Function.update alarms k (some (now + p))) := by
  unfold Timers.fire at hfire
  cases hlive : T.live h with
  | none => simp [hlive] at hfire
  | some timer =>
      obtain ⟨hslot, halarm, hevery⟩ := (hs.live_iff h timer).mp hlive
      simp only [hlive, hevery] at hfire
      by_cases hdue : timer.due ≤ now
      · cases hperiod : period timer.call with
        | none =>
            obtain ⟨rfl, rfl⟩ : timer.call = k ∧ T.clear h = T' := by
              simpa [hdue, hperiod] using hfire
            have hcleared := hs.clearSlot timer.call
            rw [hslot] at hcleared
            rw [hperiod]
            exact ⟨⟨timer.due, hdue, halarm⟩, hcleared⟩
        | some p =>
            obtain ⟨rfl, rfl⟩ : timer.call = k ∧ T.rearm h (now + p) = T' := by
              simpa [hdue, hperiod] using hfire
            rw [hperiod]
            exact ⟨⟨timer.due, hdue, halarm⟩, hs.rearm hslot (now + p)⟩
      · simp [hdue] at hfire

end Schedules

end Effect
