import ProvenoOracle.Demo.Page
import ProvenoOracle.Effect.Timers

/-! # The timers of the page

What `static/app.js` does over time. Every step row shows how long its step has taken: an interval
renders the times of the steps that are running, and stops itself when there are none. Under the
hashes of a complete run a visitor can click on attacks, each of which marks a hash row as broken
for three seconds.

The browser handles one thing at a time: what the visitor does, an item of a stream, or a timer
that is due. The timers stand for alarms, one for each callback (`View.Timed`), and each row has a
stopwatch of its own, which only sees the class of the row (`Watch.see`).
-/

set_option autoImplicit false

namespace ProvenoOracle.Demo

open Effect

/-- `STEP_IDS` -/
def stepIds : List StepId :=
  [.generating, .compiling, .executing, .proving, .onChain, .complete]

/-- The rows of `HASH_FIELDS`. -/
def hashRows : List HashField :=
  [.program, .input, .toolResponses, .output, .attestation, .policy]

theorem mem_stepIds (id : StepId) : id ∈ stepIds := by
  cases id <;> decide

theorem mem_hashRows (row : HashField) : row ∈ hashRows := by
  cases row <;> decide

structure Attack where
  label : String
  rowId : HashField
  message : String
  deriving DecidableEq

/-- `ATTACKS` -/
def attacks : List Attack :=
  [{ label := "Swap API response"
     rowId := .toolResponses
     message := "tool_responses_hash breaks — proof rejects " ++
       "(on-chain verifier would revert with ProofInvalid)" },
    { label := "Backdate timestamp"
      rowId := .attestation
      message := "attestation_hash breaks — on-chain verifier rejects " ++
        "(on-chain verifier would revert with ProofInvalid)" },
    { label := "Change the question"
      rowId := .input
      message := "input_hash breaks — proof rejects " ++
        "(on-chain verifier would revert with ProofInvalid)" },
    { label := "Modify the Lua code"
      rowId := .program
      message := "program_hash breaks — proof rejects " ++
        "(on-chain verifier would revert with ProofInvalid)" }]

/-- What a timer of the page calls: the interval of the step times, or the end of an attack. -/
inductive Callback where
  | tick
  | attackOver (row : HashField)
  deriving DecidableEq

/-- `setInterval(.., 100)`, and timeouts. -/
def Callback.period : Callback → Option Nat
  | .tick => some 100
  | .attackOver _ => none

/-- `stepTimers`, times in milliseconds. Only a step that was started has a duration. -/
structure StepTimers where
  startTimes : StepId → Option Nat
  durations : StepId → Option Nat
  ticker : Option Nat
  started : ∀ id, startTimes id = none → durations id = none

/-- The page with its clocks. -/
structure View where
  now : Nat
  browser : Browser
  stepTimers : StepTimers
  /-- the time in the row's `.step-status` -/
  statusTimes : StepId → Option Nat
  /-- the `.tamper-msg` of a row with the class `tampered` -/
  tampered : HashField → Option String
  attackTimers : HashField → Option Nat
  timers : Timers Callback

/-- The page as it is loaded. -/
def View.start : View where
  now := 0
  browser := Browser.start
  stepTimers := ⟨fun _ => none, fun _ => none, none, fun _ _ => rfl⟩
  statusTimes _ := none
  tampered _ := none
  attackTimers _ := none
  timers := Timers.empty Callback

/-! ## The step times -/

/-- `startTimes.set`, for a step without a start time. -/
def StepTimers.begin (t : StepTimers) (id : StepId) (now : Nat) : StepTimers :=
  if (t.startTimes id).isSome then t
  else
    { t with
      startTimes := Function.update t.startTimes id (some now)
      started := by
        intro id' h
        by_cases hid : id' = id
        · simp [hid] at h
        · exact t.started id' (by simpa [hid] using h) }

/-- `durations.set`, for a step that was started and has no duration. -/
def StepTimers.freeze (t : StepTimers) (id : StepId) (now : Nat) : StepTimers :=
  match hstart : t.startTimes id, t.durations id with
  | some start, none =>
      { t with
        durations := Function.update t.durations id (some (now - start))
        started := by
          intro id' h
          have hid : id' ≠ id := by
            rintro rfl
            rw [hstart] at h
            cases h
          simpa [hid] using t.started id' h }
  | _, _ => t

/-- `renderStepTime` -/
def View.renderStepTime (v : View) (id : StepId) : View :=
  match v.stepTimers.durations id, v.stepTimers.startTimes id with
  | some frozen, _ => { v with statusTimes := Function.update v.statusTimes id (some frozen) }
  | none, some start =>
      { v with statusTimes := Function.update v.statusTimes id (some (v.now - start)) }
  | none, none => v

/-- `startStepTimerTicker` -/
def View.startStepTimerTicker (v : View) : View :=
  match v.stepTimers.ticker with
  | some _ => v
  | none =>
      { v with
        timers := (v.timers.add ⟨.tick, v.now + 100, Callback.tick.period⟩).1
        stepTimers.ticker := some (v.timers.add ⟨.tick, v.now + 100, Callback.tick.period⟩).2 }

/-- `stopStepTimerTicker` -/
def View.stopStepTimerTicker (v : View) : View :=
  { v with timers := v.timers.clearSlot v.stepTimers.ticker, stepTimers.ticker := none }

/-- `resetStepTimers` -/
def View.resetStepTimers (v : View) : View :=
  { v.stopStepTimerTicker with
    stepTimers := ⟨fun _ => none, fun _ => none, v.stopStepTimerTicker.stepTimers.ticker,
      fun _ _ => rfl⟩
    statusTimes := fun _ => none }

/-- `setStep`, behind the class of the row. -/
def View.timeStep (v : View) (id : StepId) : StepState → View
  | .active =>
      let v := { v with stepTimers := v.stepTimers.begin id v.now }
      (v.renderStepTime id).startStepTimerTicker
  | .done | .failed =>
      let v := { v with stepTimers := v.stepTimers.freeze id v.now }
      v.renderStepTime id

/-- A step with a start time and without a duration. -/
def View.isTimed (v : View) (id : StepId) : Bool :=
  (v.stepTimers.startTimes id).isSome && (v.stepTimers.durations id).isNone

/-- The callback of the interval. -/
def View.tick (v : View) : View :=
  let v := stepIds.foldl (fun v id => if v.isTimed id then v.renderStepTime id else v) v
  if stepIds.all fun id => !v.isTimed id then v.stopStepTimerTicker else v

/-! ## The attack simulator -/

/-- `triggerAttack` -/
def View.triggerAttack (v : View) (attack : Attack) : View :=
  -- the timer of an earlier attack on the row would end this one
  let timers := v.timers.clearSlot (v.attackTimers attack.rowId)
  let timeout : Timer Callback :=
    ⟨.attackOver attack.rowId, v.now + 3000, (Callback.attackOver attack.rowId).period⟩
  { v with
    tampered := Function.update v.tampered attack.rowId (some attack.message)
    attackTimers := Function.update v.attackTimers attack.rowId (some (timers.add timeout).2)
    timers := (timers.add timeout).1 }

/-- `hideAttackSimulator` -/
def View.hideAttackSimulator (v : View) : View :=
  { v with
    timers := hashRows.foldl (fun T row => T.clearSlot (v.attackTimers row)) v.timers
    attackTimers := fun _ => none }

/-- A timer has gone off. -/
def View.called (v : View) : Callback → View
  | .tick => v.tick
  | .attackOver row =>
      { v with
        tampered := Function.update v.tampered row none
        attackTimers := Function.update v.attackTimers row none }

/-! ## Events and steps -/

/-- The calls of `setStep` for an event. -/
def stepCalls {τ : Type} (page : Page τ) : DemoEvent → List (StepId × StepState)
  | .generatingLua _ => [(.generating, .active)]
  | .luaReady _ => [(.generating, .done)]
  | .compiling => [(.compiling, .active)]
  | .executing => [(.compiling, .done), (.executing, .active)]
  | .toolCall _ _ _ => []
  | .proving => [(.executing, .done), (.proving, .active)]
  | .complete _ _ => [(.proving, .done), (.complete, .done)]
  | .verifyingOnChain _ _ _ => [(.onChain, .active)]
  | .verifiedOnChain accepted _ _ => [(.onChain, if accepted then .done else .failed)]
  | .error _ _ =>
      (stepIds.filter fun id => (page.steps id).map Prod.fst == some .active).map (·, .failed)

/-- `handleEvent`, behind what it does to the page. -/
def View.timeEvent (v : View) (e : DemoEvent) : View :=
  let timed := (stepCalls v.browser.page e).foldl (fun v call => v.timeStep call.1 call.2) v
  match e with
  | .error _ _ => timed.stopStepTimerTicker
  | _ => timed

/-- `resetUI`, behind what it does to the page. -/
def View.resetTimes (v : View) : View :=
  { v.resetStepTimers with tampered := fun _ => none }.hideAttackSimulator

/-- `onSubmit`, behind what it does to the page. -/
def View.submitTimes (v : View) (value : String) : View :=
  if value.toList.all isJsSpace then v else v.resetTimes

/-- An input of the page, with what it does to the clocks. -/
def View.input (v : View) (i : Input) : View :=
  let timed :=
    match i with
    | .click value => if v.browser.page.runEnabled then v.submitTimes value else v
    | .enter value => v.submitTimes value
    | .item run x =>
        match x with
        | .event e => if 1 ≤ run ∧ run ≤ v.browser.runs then v.timeEvent e else v
        | _ => v
  { timed with browser := v.browser.step i }

/-- What the browser handles: an input, a click on an attack, or a timer. -/
inductive Act where
  | input (i : Input)
  | attack (a : Attack)
  | fire (handle : Nat)

/-- One thing. A timer goes off when it is due, and an attack is a button that is there. -/
def View.handle (v : View) : Act → Option View
  | .input i => some (v.input i)
  | .attack a =>
      if a ∈ attacks ∧ v.browser.page.attackSimulator then some (v.triggerAttack a) else none
  | .fire handle =>
      (v.timers.fire handle v.now).map fun fired => { v with timers := fired.2 }.called fired.1

/-- The browser handles one thing, at a time that is not before the last one. -/
def View.step (v : View) (act : Nat × Act) : Option View :=
  if v.now ≤ act.1 then { v with now := act.1 }.handle act.2 else none

/-! ## A stopwatch for each row -/

/-- What a row's stopwatch is for: it starts when its step first becomes active, and is stopped
when the step is first over. -/
inductive Watch where
  | idle
  | running (since : Nat)
  | stopped (since duration : Nat)
  deriving DecidableEq

/-- The stopwatch sees the class of its row. -/
def Watch.see (w : Watch) (now : Nat) : Option StepState → Watch
  | none => .idle
  | some .active =>
      match w with
      | .idle => .running now
      | w => w
  | some .done | some .failed =>
      match w with
      | .running since => .stopped since (now - since)
      | w => w

/-- The class of a row. -/
def View.row (v : View) (id : StepId) : Option StepState := (v.browser.page.steps id).map Prod.fst

/-- The stopwatch of a row. -/
def StepTimers.watch (t : StepTimers) (id : StepId) : Watch :=
  match t.startTimes id, t.durations id with
  | none, _ => .idle
  | some since, none => .running since
  | some since, some duration => .stopped since duration

/-- Only the stopwatch of an active row is running. -/
theorem eq_active_of_see {w : Watch} {now since : Nat} {c : Option StepState}
    (h : w.see now c = .running since) : c = some .active := by
  rcases c with - | - | - | - <;> cases w <;> simp [Watch.see] at h ⊢

/-- A second look at the same class changes nothing. -/
theorem see_see (w : Watch) (now now' : Nat) (c : Option StepState) :
    (w.see now c).see now' c = w.see now c := by
  rcases c with - | - | - | - <;> cases w <;> rfl

theorem begin_watch (t : StepTimers) (id : StepId) (now : Nat) (id' : StepId) :
    (t.begin id now).watch id'
      = if id' = id then (t.watch id').see now (some .active) else t.watch id' := by
  unfold StepTimers.begin
  cases hstart : t.startTimes id with
  | none =>
      have hduration := t.started id hstart
      by_cases hid : id' = id
      · simp [StepTimers.watch, Watch.see, hid, hstart, hduration]
      · simp [StepTimers.watch, hid]
  | some start =>
      by_cases hid : id' = id
      · cases hduration : t.durations id <;>
          simp [StepTimers.watch, Watch.see, hid, hstart, hduration]
      · simp [hid]

theorem freeze_watch (t : StepTimers) (id : StepId) (now : Nat) (id' : StepId) :
    (t.freeze id now).watch id'
      = if id' = id then (t.watch id').see now (some .done) else t.watch id' := by
  unfold StepTimers.freeze
  split
  · rename_i hstart hduration
    by_cases hid : id' = id
    · simp [StepTimers.watch, Watch.see, hid, hstart, hduration]
    · simp [StepTimers.watch, hid]
  · rename_i hother
    by_cases hid : id' = id
    · subst hid
      cases hstart : t.startTimes id' <;> cases hduration : t.durations id' <;>
        simp_all [StepTimers.watch, Watch.see]
    · simp [hid]

/-- What is rendered for a stopwatch over an older text. -/
def Watch.text (w : Watch) (now : Nat) (old : Option Nat) : Option Nat :=
  match w with
  | .idle => old
  | .running since => some (now - since)
  | .stopped _ duration => some duration

theorem renderStepTime_eq (v : View) (id : StepId) : v.renderStepTime id =
    { v with
      statusTimes := Function.update v.statusTimes id
        ((v.stepTimers.watch id).text v.now (v.statusTimes id)) } := by
  have hstarted := v.stepTimers.started id
  unfold View.renderStepTime StepTimers.watch
  cases hstart : v.stepTimers.startTimes id with
  | none => simp [hstarted hstart, Watch.text]
  | some start => cases v.stepTimers.durations id <;> rfl

theorem isTimed_iff {v : View} {id : StepId} :
    v.isTimed id = true ↔ ∃ since, v.stepTimers.watch id = .running since := by
  unfold View.isTimed StepTimers.watch
  cases v.stepTimers.startTimes id <;> cases v.stepTimers.durations id <;> simp

/-! ## The alarms of the page -/

/-- The variables with the handles of the timers. -/
def View.slots (v : View) : Callback → Option Nat
  | .tick => v.stepTimers.ticker
  | .attackOver row => v.attackTimers row

/-- The text of a row, for its stopwatch and the time of the next tick. The time of a running step
was seen less than a tick before the next one. -/
def Watch.Rendered (now : Nat) (tick text : Option Nat) : Watch → Prop
  | .idle => text = none
  | .running since => ∃ seen due, since ≤ seen ∧ seen ≤ now ∧ text = some (seen - since) ∧
      tick = some due ∧ due ≤ seen + 100
  | .stopped _ duration => text = some duration

/-- The timers of the page stand for alarms: one for the next tick, and one for the end of each
attack that is shown. -/
structure View.Timed (v : View) (alarms : Callback → Option Nat) : Prop where
  schedules : Schedules Callback.period v.slots v.timers alarms
  interval : ∀ due, alarms .tick = some due → due ≤ v.now + 100
  rendered : ∀ id, (v.stepTimers.watch id).Rendered v.now (alarms .tick) (v.statusTimes id)
  marks : ∀ row, v.tampered row = none ↔ alarms (.attackOver row) = none
  hidden : v.browser.page.attackSimulator = false → ∀ row, v.tampered row = none

theorem slots_ticker (v : View) (ticker : Option Nat) (timers : Timers Callback) :
    View.slots { v with stepTimers.ticker := ticker, timers := timers }
      = Function.update v.slots .tick ticker := by
  funext k
  cases k <;> simp [View.slots]

theorem slots_attackTimers (v : View) (row : HashField) (handle : Option Nat)
    (tampered : HashField → Option String) (timers : Timers Callback) :
    View.slots { v with
        attackTimers := Function.update v.attackTimers row handle
        tampered := tampered
        timers := timers }
      = Function.update v.slots (.attackOver row) handle := by
  funext k
  cases k with
  | tick => simp [View.slots]
  | attackOver row' => by_cases hrow : row' = row <;> simp [View.slots, hrow]

section Operations

variable {v : View} {alarms : Callback → Option Nat}

/-- After the interval is started, there is a tick within its period. -/
theorem startStepTimerTicker_spec (hs : Schedules Callback.period v.slots v.timers alarms) :
    ∃ ticker timers, v.startStepTimerTicker
        = { v with stepTimers.ticker := ticker, timers := timers } ∧
      Schedules Callback.period v.startStepTimerTicker.slots timers
        (Function.update alarms .tick (some ((alarms .tick).getD (v.now + 100)))) := by
  unfold View.startStepTimerTicker
  cases hticker : v.stepTimers.ticker with
  | none =>
      have halarm : alarms .tick = none := (hs.none_iff .tick).mp hticker
      refine ⟨_, _, rfl, ?_⟩
      dsimp only
      rw [slots_ticker, halarm]
      exact hs.add (k := Callback.tick) hticker (v.now + 100)
  | some handle =>
      obtain ⟨due, halarm, -⟩ := hs.live_of_slot (k := Callback.tick) hticker
      refine ⟨_, _, rfl, ?_⟩
      rw [halarm, Option.getD_some, ← halarm, Function.update_eq_self]
      exact hs

theorem stopStepTimerTicker_spec (hs : Schedules Callback.period v.slots v.timers alarms) :
    Schedules Callback.period v.stopStepTimerTicker.slots v.stopStepTimerTicker.timers
      (Function.update alarms .tick none) := by
  unfold View.stopStepTimerTicker
  rw [slots_ticker]
  exact hs.clearSlot .tick

/-- What `setStep` leaves alone. -/
theorem timeStep_eq (v : View) (id : StepId) (state : StepState) :
    ∃ stepTimers statusTimes timers, v.timeStep id state
      = { v with stepTimers := stepTimers, statusTimes := statusTimes, timers := timers } := by
  have hbegin : ∃ stepTimers statusTimes timers, v.timeStep id .active
      = { v with stepTimers := stepTimers, statusTimes := statusTimes, timers := timers } := by
    simp only [View.timeStep, renderStepTime_eq, View.startStepTimerTicker]
    split
    · exact ⟨_, _, _, rfl⟩
    · exact ⟨_, _, _, rfl⟩
  have hfreeze : ∃ stepTimers statusTimes timers, v.timeStep id .done
      = { v with stepTimers := stepTimers, statusTimes := statusTimes, timers := timers } := by
    simp only [View.timeStep, renderStepTime_eq]
    exact ⟨_, _, _, rfl⟩
  cases state with
  | active => exact hbegin
  | done => exact hfreeze
  | failed => exact hfreeze

/-- A call of `setStep` shows the class to the stopwatch of its row. -/
theorem timeStep_watch (v : View) (id : StepId) (state : StepState) (id' : StepId) :
    (v.timeStep id state).stepTimers.watch id' = if id' = id then
      (v.stepTimers.watch id').see v.now (some state) else v.stepTimers.watch id' := by
  cases state with
  | active =>
      have hticker : ∀ u : View, u.startStepTimerTicker.stepTimers.watch = u.stepTimers.watch := by
        intro u
        unfold View.startStepTimerTicker
        split <;> rfl
      simp only [View.timeStep, renderStepTime_eq, hticker]
      exact begin_watch v.stepTimers id v.now id'
  | done =>
      simp only [View.timeStep, renderStepTime_eq]
      exact freeze_watch v.stepTimers id v.now id'
  | failed =>
      simp only [View.timeStep, renderStepTime_eq]
      exact freeze_watch v.stepTimers id v.now id'

theorem begin_ticker (t : StepTimers) (id : StepId) (now : Nat) :
    (t.begin id now).ticker = t.ticker := by
  unfold StepTimers.begin
  split <;> rfl

theorem freeze_ticker (t : StepTimers) (id : StepId) (now : Nat) :
    (t.freeze id now).ticker = t.ticker := by
  unfold StepTimers.freeze
  split <;> rfl

section Rendered

variable {w : Watch} {now : Nat} {tick text : Option Nat}

/-- A running stopwatch keeps its rendered time when the clock moves on. -/
theorem rendered_later (h : w.Rendered now tick text) {now' : Nat} (hnow : now ≤ now') :
    w.Rendered now' tick text := by
  cases w with
  | running since =>
      obtain ⟨seen, due, hsince, hseen, htext, htick, hdue⟩ := h
      exact ⟨seen, due, hsince, by omega, htext, htick, hdue⟩
  | idle => exact h
  | stopped since duration => exact h

/-- An alarm for the next tick that is set already is not changed. -/
theorem rendered_getD (h : w.Rendered now tick text) (due : Nat) :
    w.Rendered now (some (tick.getD due)) text := by
  cases w with
  | running since =>
      obtain ⟨seen, due', hsince, hseen, htext, rfl, hdue⟩ := h
      exact ⟨seen, due', hsince, hseen, htext, rfl, hdue⟩
  | idle => exact h
  | stopped since duration => exact h

/-- Only running stopwatches need the next tick. -/
theorem rendered_stop (h : w.Rendered now tick text) (hw : ∀ since, w ≠ .running since)
    (tick' : Option Nat) : w.Rendered now tick' text := by
  cases w with
  | running since => exact absurd rfl (hw since)
  | idle => exact h
  | stopped since duration => exact h

/-- What is rendered now is right, if the next tick is within its period. -/
theorem rendered_active (h : w.Rendered now tick text) {due : Nat} (hdue : due ≤ now + 100) :
    (w.see now (some .active)).Rendered now (some due)
      ((w.see now (some .active)).text now text) := by
  cases w with
  | idle => exact ⟨now, due, le_rfl, le_rfl, rfl, rfl, hdue⟩
  | running since =>
      obtain ⟨seen, -, hsince, hseen, -⟩ := h
      exact ⟨now, due, hsince.trans hseen, le_rfl, rfl, rfl, hdue⟩
  | stopped since duration => rfl

theorem rendered_done (h : w.Rendered now tick text) :
    (w.see now (some .done)).Rendered now tick ((w.see now (some .done)).text now text) := by
  cases w with
  | idle => exact h
  | running since => rfl
  | stopped since duration => rfl

end Rendered

/-- The end of a step, with the time that is rendered. -/
theorem timed_freeze (hv : v.Timed alarms) (id : StepId) : (v.timeStep id .done).Timed alarms := by
  simp only [View.timeStep, renderStepTime_eq]
  refine { hv with schedules := ?_, rendered := ?_ }
  · have hslots : ∀ k, v.slots k = View.slots { v with
        stepTimers := v.stepTimers.freeze id v.now
        statusTimes := Function.update v.statusTimes id
          (((v.stepTimers.freeze id v.now).watch id).text v.now (v.statusTimes id)) } k := by
      intro k
      cases k <;> simp [View.slots, freeze_ticker]
    rw [← funext hslots]
    exact hv.schedules
  · intro id'
    by_cases hid : id' = id
    · subst hid
      simp only [freeze_watch, if_true, Function.update_self]
      exact rendered_done (hv.rendered id')
    · simp only [freeze_watch, hid, if_false, Function.update_of_ne, ne_eq, not_false_eq_true]
      exact hv.rendered id'

/-- A call of `setStep` keeps the alarms of the attacks. -/
theorem timed_timeStep (hv : v.Timed alarms) (id : StepId) (state : StepState) :
    ∃ tick, (v.timeStep id state).Timed (Function.update alarms .tick tick) := by
  have hended : ∃ tick, (v.timeStep id .done).Timed (Function.update alarms .tick tick) := by
    refine ⟨alarms .tick, ?_⟩
    rw [Function.update_eq_self]
    exact timed_freeze hv id
  cases state with
  | done => exact hended
  | failed => exact hended
  | active =>
      have hslots : ∀ k, v.slots k = View.slots { v with
          stepTimers := v.stepTimers.begin id v.now
          statusTimes := Function.update v.statusTimes id
            (((v.stepTimers.begin id v.now).watch id).text v.now (v.statusTimes id)) } k := by
        intro k
        cases k <;> simp [View.slots, begin_ticker]
      have hs := hv.schedules
      rw [funext hslots] at hs
      obtain ⟨ticker, timers, heq, hstarted⟩ := startStepTimerTicker_spec hs
      rw [heq] at hstarted
      have hdue : (alarms .tick).getD (v.now + 100) ≤ v.now + 100 := by
        cases htick : alarms .tick with
        | none => exact le_rfl
        | some due => exact hv.interval due htick
      refine ⟨some ((alarms .tick).getD (v.now + 100)), ?_⟩
      simp only [View.timeStep, renderStepTime_eq]
      rw [heq]
      refine ⟨hstarted, ?_, ?_, ?_, hv.hidden⟩
      · intro due hsome
        rw [Function.update_self, Option.some_inj] at hsome
        rw [← hsome]
        exact hdue
      · intro id'
        rw [Function.update_self]
        show ((v.stepTimers.begin id v.now).watch id').Rendered v.now _ _
        by_cases hid : id' = id
        · subst hid
          simp only [begin_watch, if_true, Function.update_self]
          exact rendered_active (hv.rendered id') hdue
        · simp only [begin_watch, hid, if_false, Function.update_of_ne, ne_eq, not_false_eq_true]
          exact rendered_getD (hv.rendered id') _
      · intro row
        simpa using hv.marks row

/-- The end of the interval, when no step is running. -/
theorem timed_stop (hv : v.Timed alarms)
    (hnone : ∀ id since, v.stepTimers.watch id ≠ .running since) :
    v.stopStepTimerTicker.Timed (Function.update alarms .tick none) := by
  refine ⟨stopStepTimerTicker_spec hv.schedules, ?_, ?_, ?_, hv.hidden⟩
  · simp
  · intro id
    exact rendered_stop (hv.rendered id) (hnone id) _
  · intro row
    rw [Function.update_of_ne (by simp)]
    exact hv.marks row

/-- The loop of a tick, by induction on the rows. -/
theorem renderTimed_eq (v : View) (ids : List StepId) :
    ids.foldl (fun v id => if v.isTimed id then v.renderStepTime id else v) v
      = { v with
          statusTimes := fun id => if id ∈ ids ∧ v.isTimed id then
            (v.stepTimers.watch id).text v.now (v.statusTimes id) else v.statusTimes id } := by
  induction ids using List.reverseRecOn with
  | nil => simp
  | append_singleton ids id ih =>
      rw [List.foldl_append, ih]
      set times : StepId → Option Nat := fun id => if id ∈ ids ∧ v.isTimed id then
        (v.stepTimers.watch id).text v.now (v.statusTimes id) else v.statusTimes id with htimes
      show (if v.isTimed id then View.renderStepTime { v with statusTimes := times } id
        else { v with statusTimes := times }) = _
      by_cases htimed : v.isTimed id = true
      · obtain ⟨since, hsince⟩ := isTimed_iff.mp htimed
        rw [if_pos htimed, renderStepTime_eq]
        refine congrArg (fun times => { v with statusTimes := times }) (funext fun id' => ?_)
        by_cases hid : id' = id
        · subst hid
          simp [htimed, hsince, Watch.text]
        · simp [times, hid]
      · rw [if_neg htimed]
        refine congrArg (fun times => { v with statusTimes := times }) (funext fun id' => ?_)
        by_cases hid : id' = id
        · subst hid
          simp [times, htimed]
        · simp [times, hid]

/-- A tick renders the running steps and is set again, or is the last one. -/
theorem timed_tick (hv : v.Timed alarms) {timers : Timers Callback}
    (hs : Schedules Callback.period v.slots timers
      (Function.update alarms .tick (some (v.now + 100)))) :
    ∃ tick, (View.tick { v with timers := timers }).Timed (Function.update alarms .tick tick) := by
  unfold View.tick
  rw [renderTimed_eq]
  dsimp only
  set u : View := { v with
    timers := timers
    statusTimes := fun id => if id ∈ stepIds ∧ v.isTimed id then
      (v.stepTimers.watch id).text v.now (v.statusTimes id) else v.statusTimes id }
  have hu : u.Timed (Function.update alarms .tick (some (v.now + 100))) := by
    refine ⟨hs, ?_, ?_, ?_, hv.hidden⟩
    · intro due hdue
      rw [Function.update_self, Option.some_inj] at hdue
      exact hdue.ge
    · intro id
      rw [Function.update_self]
      show (v.stepTimers.watch id).Rendered v.now (some (v.now + 100))
        (if id ∈ stepIds ∧ v.isTimed id then
          (v.stepTimers.watch id).text v.now (v.statusTimes id) else v.statusTimes id)
      by_cases htimed : v.isTimed id = true
      · obtain ⟨since, hwatch⟩ := isTimed_iff.mp htimed
        have hrendered := hv.rendered id
        rw [hwatch] at hrendered
        obtain ⟨seen, -, hsince, hseen, -⟩ := hrendered
        rw [if_pos ⟨mem_stepIds id, htimed⟩, hwatch]
        exact ⟨v.now, v.now + 100, hsince.trans hseen, le_rfl, rfl, rfl, le_rfl⟩
      · rw [if_neg (fun h => htimed h.2)]
        exact rendered_stop (hv.rendered id) (fun since h => htimed (isTimed_iff.mpr ⟨since, h⟩)) _
    · intro row
      rw [Function.update_of_ne (by simp)]
      exact hv.marks row
  split
  · rename_i hall
    refine ⟨none, ?_⟩
    have hstopped := timed_stop hu ?_
    · rwa [Function.update_idem] at hstopped
    · intro id since hrunning
      have hid : (!v.isTimed id) = true := List.all_eq_true.mp hall id (mem_stepIds id)
      have htimed : v.isTimed id = true := isTimed_iff.mpr ⟨since, hrunning⟩
      simp [htimed] at hid
  · exact ⟨_, hu⟩

/-- An attack sets the end of its own row, also when the row is marked already. -/
theorem timed_attack (hv : v.Timed alarms) (a : Attack)
    (hshown : v.browser.page.attackSimulator = true) :
    (v.triggerAttack a).Timed
      (Function.update alarms (.attackOver a.rowId) (some (v.now + 3000))) := by
  have hcleared := hv.schedules.clearSlot (.attackOver a.rowId)
  have hset := hcleared.add (Function.update_self _ _ _) (v.now + 3000)
  rw [Function.update_idem, Function.update_idem] at hset
  refine ⟨?_, ?_, ?_, ?_, ?_⟩
  · unfold View.triggerAttack
    dsimp only
    rw [slots_attackTimers]
    exact hset
  · intro due hdue
    rw [Function.update_of_ne (by simp)] at hdue
    exact hv.interval due hdue
  · intro id
    rw [Function.update_of_ne (by simp)]
    exact hv.rendered id
  · intro row
    by_cases hrow : row = a.rowId
    · simp [View.triggerAttack, hrow]
    · simpa [View.triggerAttack, hrow] using hv.marks row
  · intro hhidden
    exact absurd (hshown.symm.trans hhidden) (by simp)

/-- The end of an attack takes the mark of its row. -/
theorem timed_attackOver (hv : v.Timed alarms) {timers : Timers Callback} {row : HashField}
    (hs : Schedules Callback.period (Function.update v.slots (.attackOver row) none) timers
      (Function.update alarms (.attackOver row) none)) :
    (View.called { v with timers := timers } (.attackOver row)).Timed
      (Function.update alarms (.attackOver row) none) := by
  refine ⟨?_, ?_, ?_, ?_, ?_⟩
  · unfold View.called
    dsimp only
    rw [slots_attackTimers]
    exact hs
  · intro due hdue
    rw [Function.update_of_ne (by simp)] at hdue
    exact hv.interval due hdue
  · intro id
    rw [Function.update_of_ne (by simp)]
    exact hv.rendered id
  · intro row'
    by_cases hrow : row' = row
    · simp [View.called, hrow]
    · simpa [View.called, hrow] using hv.marks row'
  · intro hhidden row'
    by_cases hrow : row' = row
    · simp [View.called, hrow]
    · simpa [View.called, hrow] using hv.hidden hhidden row'

/-- After a reset there is no alarm. -/
theorem timed_reset (hv : v.Timed alarms) : v.resetTimes.Timed fun _ => none := by
  have hkeys : (hashRows.map Callback.attackOver).Nodup := by decide
  have hs := (stopStepTimerTicker_spec hv.schedules).clearSlots hkeys
  have hcleared : ∀ f : Callback → Option Nat, f .tick = none →
      (fun k => if k ∈ hashRows.map Callback.attackOver then none else f k) = fun _ => none := by
    intro f hf
    funext k
    cases k with
    | tick => simp [hf]
    | attackOver row => simp [mem_hashRows]
  rw [hcleared _ rfl, hcleared _ (by simp), List.foldl_map] at hs
  refine ⟨?_, ?_, ?_, ?_, ?_⟩
  · have hslots : v.resetTimes.slots = fun _ => none := by
      funext k
      cases k <;> rfl
    rw [hslots]
    exact hs
  · simp
  · intro id
    rfl
  · intro row
    exact iff_of_true rfl rfl
  · intro _ row
    rfl

end Operations

end ProvenoOracle.Demo
