import ProvenoOracle.Demo.PageTimers
import ProvenoOracle.Effect.Guarded
import ProvenoOracle.Effect.Runs

/-! # What the page shows over time

The inputs of the page, the attacks and the timers that go off come in any order, with a clock that
does not go back. `follows_step` says what one of them does to the alarms and the stopwatches of
the page. In every run, each row shows the time of its step (`step_times`), and a hash row is marked
for three seconds after the last attack on it (`attack_marks`).
-/

set_option autoImplicit false

namespace ProvenoOracle.Demo

open Effect

/-! ## Events -/

section Events

variable {τ : Type}

/-- An event calls `setStep` at most once for each row. -/
theorem stepCalls_nodup (page : Page τ) (e : DemoEvent) :
    ((stepCalls page e).map Prod.fst).Nodup := by
  cases e with
  | error message atStage =>
      have hids : stepIds.Nodup := by decide
      simpa [stepCalls, Function.comp_def] using hids.filter _
  | _ => simp [stepCalls]

/-- **What an event does to the rows of the page is its calls of `setStep`.** -/
theorem handleEvent_steps (page : Page τ) (tag : τ) (e : DemoEvent) (id : StepId) :
    ((page.handleEvent tag e).steps id).map Prod.fst
      = ((stepCalls page e).lookup id).elim ((page.steps id).map Prod.fst) some := by
  have hset : ∀ (page : Page τ) id₀ state id', (page.setStep tag id₀ state).steps id'
      = if id' = id₀ then some (state, tag) else page.steps id' := by
    intro page id₀ state id'
    by_cases hid : id' = id₀ <;> simp [Page.setStep, hid]
  cases e with
  | toolCall name args response => rfl
  | error message atStage =>
      -- an error fails the rows that are active
      rcases hrow : page.steps id with - | ⟨- | - | -, tag'⟩ <;>
        simp [Page.handleEvent, Page.enableRunButton, Page.showResultBanner, stepCalls,
          lookup_map_const, mem_stepIds, hrow]
  | verifiedOnChain accepted reason txHash =>
      cases accepted <;> by_cases hid : id = .onChain <;>
        simp [Page.handleEvent, Page.showResultBanner, stepCalls, hset, hid, lookup_cons_if]
  | _ =>
      cases id <;> simp [Page.handleEvent, Page.enableRunButton, Page.showResultBanner,
        Page.showHashes, stepCalls, hset, lookup_cons_if]

theorem handleEvent_attackSimulator {page : Page τ} {tag : τ} {e : DemoEvent}
    (h : (page.handleEvent tag e).attackSimulator = false) : page.attackSimulator = false := by
  cases e with
  | complete result hashes => simp [Page.handleEvent, Page.enableRunButton] at h
  | verifiedOnChain accepted reason txHash =>
      cases accepted <;> exact h
  | _ => exact h

end Events

section Steps

variable {v : View} {alarms : Callback → Option Nat}

/-- What the calls of `setStep` leave alone. -/
theorem foldl_timeStep_eq (calls : List (StepId × StepState)) (v : View) :
    ∃ stepTimers statusTimes timers, calls.foldl (fun v call => v.timeStep call.1 call.2) v
      = { v with stepTimers := stepTimers, statusTimes := statusTimes, timers := timers } := by
  induction calls generalizing v with
  | nil => exact ⟨_, _, _, rfl⟩
  | cons call calls ih =>
      obtain ⟨stepTimers, statusTimes, timers, hfirst⟩ := timeStep_eq v call.1 call.2
      rw [List.foldl_cons, hfirst]
      obtain ⟨stepTimers', statusTimes', timers', hrest⟩ := ih
        { v with stepTimers := stepTimers, statusTimes := statusTimes, timers := timers }
      exact ⟨stepTimers', statusTimes', timers', hrest⟩

theorem timed_foldl_timeStep (hv : v.Timed alarms) (calls : List (StepId × StepState)) :
    ∃ tick, (calls.foldl (fun v call => v.timeStep call.1 call.2) v).Timed
      (Function.update alarms .tick tick) := by
  induction calls generalizing v alarms with
  | nil =>
      refine ⟨alarms .tick, ?_⟩
      rw [Function.update_eq_self]
      exact hv
  | cons call calls ih =>
      obtain ⟨tick, hfirst⟩ := timed_timeStep hv call.1 call.2
      obtain ⟨tick', hrest⟩ := ih hfirst
      rw [Function.update_idem] at hrest
      exact ⟨tick', hrest⟩

theorem foldl_timeStep_watch (v : View) {calls : List (StepId × StepState)}
    (hcalls : (calls.map Prod.fst).Nodup) (id : StepId) :
    (calls.foldl (fun v call => v.timeStep call.1 call.2) v).stepTimers.watch id
      = (calls.lookup id).elim (v.stepTimers.watch id)
        fun state => (v.stepTimers.watch id).see v.now (some state) := by
  have hparts := @foldl_part View StepId (Nat × Watch) StepState _
    (fun v call => v.timeStep call.1 call.2) (fun v id => (v.now, v.stepTimers.watch id))
    (fun state p => (p.1, p.2.see p.1 (some state))) ?_ _ hcalls v id
  · have hwatch := congrArg Prod.snd hparts
    cases hlookup : calls.lookup id <;> simpa [hlookup] using hwatch
  · intro u id₀ state id'
    obtain ⟨stepTimers, statusTimes, timers, hframe⟩ := timeStep_eq u id₀ state
    have hnow : (u.timeStep id₀ state).now = u.now := by rw [hframe]
    rw [hnow, timeStep_watch]
    by_cases hid : id' = id₀ <;> simp [hid]

/-- The stopwatches have seen the classes of their rows. -/
def View.Settled (v : View) : Prop :=
  ∀ id now, (v.stepTimers.watch id).see now (v.row id) = v.stepTimers.watch id

/-- The stopwatches see what an event does to the rows. -/
theorem timeEvent_watch (hv : v.Settled) (tag : Nat) (e : DemoEvent) (id : StepId) :
    (v.timeEvent e).stepTimers.watch id = (v.stepTimers.watch id).see v.now
      (((v.browser.page.handleEvent tag e).steps id).map Prod.fst) := by
  have hcalls := foldl_timeStep_watch v (stepCalls_nodup v.browser.page e) id
  have hevent : (v.timeEvent e).stepTimers.watch id = ((stepCalls v.browser.page e).foldl
      (fun v call => v.timeStep call.1 call.2) v).stepTimers.watch id := by
    cases e <;> rfl
  rw [hevent, hcalls, handleEvent_steps]
  cases (stepCalls v.browser.page e).lookup id with
  | none => exact (hv id v.now).symm
  | some state => rfl

/-- An error leaves no step running, so the interval can be stopped. -/
theorem timed_timeEvent (hv : v.Timed alarms) (hsettled : v.Settled) (e : DemoEvent) :
    ∃ tick, (v.timeEvent e).Timed (Function.update alarms .tick tick) := by
  obtain ⟨tick, hcalls⟩ := timed_foldl_timeStep hv (stepCalls v.browser.page e)
  cases e with
  | error message atStage =>
      refine ⟨none, ?_⟩
      have hstopped := timed_stop hcalls ?_
      · rwa [Function.update_idem] at hstopped
      · intro id since hrunning
        have hseen := timeEvent_watch hsettled 0 (.error message atStage) id
        have hactive := eq_active_of_see (hseen.symm.trans hrunning)
        -- the rows that were active have failed
        simp only [handleEvent_steps, stepCalls, lookup_map_const, List.mem_filter, mem_stepIds,
          true_and, beq_iff_eq] at hactive
        by_cases hrow : (v.browser.page.steps id).map Prod.fst = some .active
        · simp [hrow] at hactive
        · simp [hrow] at hactive
  | _ => exact ⟨tick, hcalls⟩

/-- What a step can do to the alarms: an input resets all of them or moves the next tick only, an
attack sets the end of its row, and the end of an attack that is due is taken with its mark. -/
inductive View.Turned (v : View) (alarms : Callback → Option Nat) (act : Act) (v' : View) :
    (Callback → Option Nat) → Prop where
  | reset : v'.browser.runs = v.browser.runs + 1 → v.Turned alarms act v' fun _ => none
  | quiet (tick : Option Nat) : (∀ a, act ≠ .attack a) → v'.browser.runs = v.browser.runs →
      v'.tampered = v.tampered → v.Turned alarms act v' (Function.update alarms .tick tick)
  | attack (a : Attack) : act = .attack a → v'.browser = v.browser →
      v'.tampered = Function.update v.tampered a.rowId (some a.message) →
      v.Turned alarms act v' (Function.update alarms (.attackOver a.rowId) (some (v'.now + 3000)))
  | attackOver (row : HashField) (due : Nat) : (∀ a, act ≠ .attack a) → due ≤ v'.now →
      alarms (.attackOver row) = some due → v'.browser = v.browser →
      v'.tampered = Function.update v.tampered row none →
      v.Turned alarms act v' (Function.update alarms (.attackOver row) none)

theorem timeEvent_eq (v : View) (e : DemoEvent) :
    ∃ stepTimers statusTimes timers, v.timeEvent e
      = { v with stepTimers := stepTimers, statusTimes := statusTimes, timers := timers } := by
  obtain ⟨stepTimers, statusTimes, timers, hcalls⟩ :=
    foldl_timeStep_eq (stepCalls v.browser.page e) v
  cases e with
  | error message atStage =>
      unfold View.timeEvent View.stopStepTimerTicker
      dsimp only
      rw [hcalls]
      exact ⟨_, _, _, rfl⟩
  | _ => exact ⟨_, _, _, hcalls⟩

/-- What a tick leaves alone. -/
theorem tick_frame (v : View) : v.tick.now = v.now ∧ v.tick.browser = v.browser ∧
    v.tick.tampered = v.tampered ∧ v.tick.stepTimers.watch = v.stepTimers.watch := by
  unfold View.tick
  rw [renderTimed_eq]
  dsimp only
  split
  · exact ⟨rfl, rfl, rfl, rfl⟩
  · exact ⟨rfl, rfl, rfl, rfl⟩

/-- The alarms do not depend on the page, but for the attack simulator. -/
theorem timed_browser (hv : v.Timed alarms) (browser : Browser)
    (hhidden : browser.page.attackSimulator = false → ∀ row, v.tampered row = none) :
    View.Timed { v with browser := browser } alarms :=
  ⟨hv.schedules, hv.interval, hv.rendered, hv.marks, hhidden⟩

theorem timed_later (hv : v.Timed alarms) {now : Nat} (hnow : v.now ≤ now) :
    View.Timed { v with now := now } alarms := by
  refine ⟨hv.schedules, ?_, fun id => rendered_later (hv.rendered id) hnow, hv.marks, hv.hidden⟩
  intro due hdue
  have hold := hv.interval due hdue
  show due ≤ now + 100
  omega

theorem submit_of_blank (b : Browser) {value : String} (h : value.toList.all isJsSpace = true) :
    b.submit value = b := by
  simp [Browser.submit, Page.onSubmit, h]

theorem submit_of_task (b : Browser) {value : String} (h : ¬value.toList.all isJsSpace = true) :
    b.submit value = ⟨{ b.page.resetUI with runEnabled := false }, b.runs + 1⟩ := by
  simp [Browser.submit, Page.onSubmit, h]

/-- What a step can do: to the alarms, and to the stopwatches, which see the classes of their
rows. -/
structure View.Follows (v : View) (alarms : Callback → Option Nat) (act : Act) (v' : View) :
    Prop where
  now : v'.now = v.now
  turned : ∃ alarms', v'.Timed alarms' ∧ v.Turned alarms act v' alarms'
  watches : ∀ id, v'.stepTimers.watch id = (v.stepTimers.watch id).see v'.now (v'.row id)

/-- An input that changes nothing but the page, and no row of it. -/
theorem follows_quiet (hv : v.Timed alarms) (hsettled : v.Settled) (i : Input) {browser : Browser}
    (hruns : browser.runs = v.browser.runs) (hsteps : browser.page.steps = v.browser.page.steps)
    (hshown : browser.page.attackSimulator = v.browser.page.attackSimulator) :
    v.Follows alarms (.input i) { v with browser := browser } := by
  refine ⟨rfl, ⟨alarms, timed_browser hv browser ?_, ?_⟩, ?_⟩
  · rw [hshown]
    exact hv.hidden
  · have hquiet : v.Turned alarms (.input i) { v with browser := browser }
        (Function.update alarms .tick (alarms .tick)) := .quiet _ (by simp) hruns rfl
    rwa [Function.update_eq_self] at hquiet
  · intro id
    have hrow : View.row { v with browser := browser } id = v.row id := by
      simp [View.row, hsteps]
    rw [hrow]
    exact (hsettled id v.now).symm

/-- A submitted task resets the rows and the alarms. -/
theorem follows_submit (hv : v.Timed alarms) (hsettled : v.Settled) (i : Input) (value : String) :
    v.Follows alarms (.input i) { v.submitTimes value with browser := v.browser.submit value } := by
  unfold View.submitTimes
  by_cases hblank : value.toList.all isJsSpace = true
  · rw [if_pos hblank, submit_of_blank v.browser hblank]
    exact follows_quiet hv hsettled i rfl rfl rfl
  · rw [if_neg hblank, submit_of_task v.browser hblank]
    refine ⟨rfl, ⟨_, timed_browser (timed_reset hv) _ fun _ _ => rfl, .reset rfl⟩, fun id => rfl⟩

/-- An event moves the next tick only, and the stopwatches see what it does to the rows. -/
theorem follows_event (hv : v.Timed alarms) (hsettled : v.Settled) (i : Input) (run : Nat)
    (e : DemoEvent) :
    v.Follows alarms (.input i) { v.timeEvent e with
      browser := { v.browser with page := v.browser.page.handleEvent run e } } := by
  obtain ⟨stepTimers, statusTimes, timers, hframe⟩ := timeEvent_eq v e
  obtain ⟨tick, htimed⟩ := timed_timeEvent hv hsettled e
  have hnow : (v.timeEvent e).now = v.now := by rw [hframe]
  have htampered : (v.timeEvent e).tampered = v.tampered := by rw [hframe]
  refine ⟨hnow, ⟨_, timed_browser htimed _ ?_, .quiet tick (by simp) rfl htampered⟩, ?_⟩
  · intro hhidden row
    rw [htampered]
    exact hv.hidden (handleEvent_attackSimulator hhidden) row
  · intro id
    show (v.timeEvent e).stepTimers.watch id = (v.stepTimers.watch id).see (v.timeEvent e).now _
    rw [hnow]
    exact timeEvent_watch hsettled run e id

theorem follows_input (hv : v.Timed alarms) (hsettled : v.Settled) (i : Input) :
    v.Follows alarms (.input i) (v.input i) := by
  have hsame : v.Follows alarms (.input i) v := follows_quiet hv hsettled _ rfl rfl rfl
  unfold View.input
  cases i with
  | click value =>
      by_cases henabled : v.browser.page.runEnabled = true
      · simpa [Browser.step, henabled] using follows_submit hv hsettled _ value
      · simpa [Browser.step, henabled] using hsame
  | enter value => exact follows_submit hv hsettled _ value
  | item run x =>
      by_cases hstarted : 1 ≤ run ∧ run ≤ v.browser.runs
      · cases x with
        | event e =>
            simpa [Browser.step, Page.receive, hstarted] using
              follows_event hv hsettled _ run e
        | networkError message =>
            simp only [Browser.step, if_pos hstarted]
            exact follows_quiet hv hsettled _ rfl rfl rfl
        | serverError status =>
            simp only [Browser.step, if_pos hstarted]
            exact follows_quiet hv hsettled _ rfl rfl rfl
      · cases x with
        | event e => simpa [Browser.step, hstarted] using hsame
        | networkError message => simpa [Browser.step, hstarted] using hsame
        | serverError status => simpa [Browser.step, hstarted] using hsame

theorem follows_handle (hv : v.Timed alarms) (hsettled : v.Settled) {act : Act} {v' : View}
    (h : v.handle act = some v') : v.Follows alarms act v' := by
  cases act with
  | input i =>
      cases h
      exact follows_input hv hsettled i
  | attack a =>
      change (if a ∈ attacks ∧ v.browser.page.attackSimulator = true then
        some (v.triggerAttack a) else none) = some v' at h
      by_cases hshown : a ∈ attacks ∧ v.browser.page.attackSimulator = true
      · rw [if_pos hshown] at h
        cases h
        have hattacked := timed_attack hv a hshown.2
        exact ⟨rfl, ⟨_, hattacked, .attack a rfl rfl rfl⟩, fun id => (hsettled id v.now).symm⟩
      · simp [hshown] at h
  | fire handle =>
      obtain ⟨⟨k, timers⟩, hfire, rfl⟩ := Option.map_eq_some_iff.mp h
      obtain ⟨⟨due, hdue, halarm⟩, hset⟩ := hv.schedules.fire hfire
      cases k with
      | tick =>
          obtain ⟨tick, hticked⟩ := timed_tick hv hset
          obtain ⟨hnow, hbrowser, htampered, hwatch⟩ := tick_frame { v with timers := timers }
          have hruns := congrArg Browser.runs hbrowser
          refine ⟨hnow, ⟨_, hticked, .quiet tick (by simp) hruns htampered⟩, ?_⟩
          intro id
          have hrow : (View.tick { v with timers := timers }).row id = v.row id := by
            simp [View.row, hbrowser]
          show (View.tick { v with timers := timers }).stepTimers.watch id
            = (v.stepTimers.watch id).see _ ((View.tick { v with timers := timers }).row id)
          rw [hwatch, hrow]
          exact (hsettled id _).symm
      | attackOver row =>
          have hover := timed_attackOver hv hset
          exact ⟨rfl, ⟨_, hover, .attackOver row due (by simp) hdue halarm rfl rfl⟩,
            fun id => (hsettled id v.now).symm⟩

/-- The alarms of a page that keeps to them, and stopwatches that have seen their rows. -/
def View.Good (v : View) : Prop := v.Settled ∧ ∃ alarms, v.Timed alarms

theorem good_start : View.start.Good := by
  have hidle : ∀ id, View.start.stepTimers.watch id = .idle := fun _ => rfl
  refine ⟨fun _ _ => rfl, fun _ => none, ?_, ?_, ?_, ?_, ?_⟩
  · have hslots : View.start.slots = fun _ => none := by
      funext k
      cases k <;> rfl
    rw [hslots]
    exact Schedules.empty _
  · simp
  · intro id
    rfl
  · intro row
    exact iff_of_true rfl rfl
  · intro _ row
    rfl

/-- **One step**, as what it does to the alarms and the stopwatches. -/
theorem follows_step (hv : v.Timed alarms) (hsettled : v.Settled) {act : Nat × Act} {v' : View}
    (h : v.step act = some v') :
    v.now ≤ v'.now ∧ View.Follows { v with now := act.1 } alarms act.2 v' := by
  unfold View.step at h
  by_cases hnow : v.now ≤ act.1
  · rw [if_pos hnow] at h
    have hstill : View.Settled { v with now := act.1 } := hsettled
    have hfollows := follows_handle (timed_later hv hnow) hstill h
    refine ⟨?_, hfollows⟩
    rw [hfollows.now]
    exact hnow
  · simp [hnow] at h

theorem good_step {act : Nat × Act} {v' : View} (hv : v.Good) (h : v.step act = some v') :
    v'.Good ∧ ∀ id, v'.stepTimers.watch id = (v.stepTimers.watch id).see v'.now (v'.row id) := by
  obtain ⟨hsettled, alarms, htimed⟩ := hv
  obtain ⟨-, hfollows⟩ := follows_step htimed hsettled h
  obtain ⟨alarms', htimed', -⟩ := hfollows.turned
  have hwatches : ∀ id, v'.stepTimers.watch id
      = (v.stepTimers.watch id).see v'.now (v'.row id) := hfollows.watches
  refine ⟨⟨?_, alarms', htimed'⟩, hwatches⟩
  intro id now
  rw [hwatches id]
  exact see_see _ _ _ _

end Steps

/-! ## Any order of inputs, attacks and timers -/

/-- A row shows nothing before its step has started and its duration when it is over. While it
runs, a tick is set, and the time is right to within one period of it. -/
def View.ShowsTime (v : View) (id : StepId) : Prop :=
  match v.stepTimers.watch id with
  | .idle => v.statusTimes id = none
  | .stopped _ duration => v.statusTimes id = some duration
  | .running since => ∃ handle timer shown, v.stepTimers.ticker = some handle ∧
      v.timers.live handle = some timer ∧ timer.call = .tick ∧ v.statusTimes id = some shown ∧
      shown ≤ v.now - since ∧ (v.now < timer.due → v.now - since < shown + 100)

theorem showsTime_of_timed {v : View} {alarms : Callback → Option Nat} (hv : v.Timed alarms)
    (id : StepId) : v.ShowsTime id := by
  have hrendered := hv.rendered id
  unfold View.ShowsTime
  cases hwatch : v.stepTimers.watch id with
  | idle => simpa [hwatch, Watch.Rendered] using hrendered
  | stopped since duration => simpa [hwatch, Watch.Rendered] using hrendered
  | running since =>
      rw [hwatch] at hrendered
      obtain ⟨seen, due, hsince, hseen, htext, htick, hdue⟩ := hrendered
      obtain ⟨handle, hslot, hlive⟩ := hv.schedules.live_of_alarm htick
      refine ⟨handle, _, seen - since, hslot, hlive, rfl, htext, by omega, ?_⟩
      intro hnext
      have hlate : v.now < due := hnext
      omega

/-- The classes of a row on the way of a run, as its stopwatch sees them. -/
def seenBy (id : StepId) (w : Watch) (move : Move View (Nat × Act)) : Watch :=
  w.see move.after.now (move.after.row id)

/-- **The step times.** In every run of the page the stopwatch of a row is what it has seen of its
row's classes, and the row shows its time; there is one interval at most. -/
theorem step_times {acts : List (Nat × Act)} {v : View}
    (hrun : run View.step View.start acts = some v) :
    (∀ id, v.stepTimers.watch id = (moves View.step View.start acts).foldl (seenBy id) .idle ∧
        v.ShowsTime id) ∧
      ∀ handle timer, v.timers.live handle = some timer → timer.call = .tick →
        v.stepTimers.ticker = some handle := by
  have hgood : v.Good := run_invariant (fun _ _ _ hv h => (good_step hv h).1) good_start hrun
  obtain ⟨-, alarms, htimed⟩ := hgood
  constructor
  · intro id
    have hstep : ∀ (s : View) (act : Nat × Act) (t : View) (w : Watch),
        s.Good ∧ s.stepTimers.watch id = w → s.step act = some t →
          t.Good ∧ t.stepTimers.watch id = seenBy id w ⟨s, act, t⟩ := by
      rintro s act t - ⟨hs, rfl⟩ h
      exact ⟨(good_step hs h).1, (good_step hs h).2 id⟩
    have hwatch := run_history hstep ⟨good_start, rfl⟩ hrun
    exact ⟨hwatch.2, showsTime_of_timed htimed id⟩
  · intro handle timer hlive hcall
    have hslot := ((htimed.schedules.live_iff handle timer).mp hlive).1
    rw [hcall] at hslot
    exact hslot

/-- A compilation of 140 milliseconds. -/
def slowCompilation : List (Nat × Act) :=
  [(5, .input (.enter "task")), (10, .input (.item 1 (.event .compiling))), (120, .fire 1),
    (150, .input (.item 1 (.event .executing)))]

theorem step_times_compilation : ∃ v, run View.step View.start slowCompilation = some v ∧
    v.stepTimers.watch .compiling = .stopped 10 140 ∧ v.statusTimes .compiling = some 140 :=
  ⟨_, rfl, rfl, ((@step_times slowCompilation _ rfl).1 .compiling).2⟩

/-- The last attack on each row since the last submitted task: its time and its message. -/
def noteAttack (last : HashField → Option (Nat × String)) (move : Move View (Nat × Act)) :
    HashField → Option (Nat × String) :=
  if move.after.browser.runs ≠ move.before.browser.runs then fun _ => none
  else
    match move.input.2 with
    | .attack a => Function.update last a.rowId (some (move.input.1, a.message))
    | _ => last

/-- Every timer that was due has gone off. -/
def View.NothingDue (v : View) : Prop :=
  ∀ handle timer, v.timers.live handle = some timer → v.now < timer.due

/-- A row is marked for three seconds after the last attack on it. -/
def View.ShowsAttack (v : View) (row : HashField) : Option (Nat × String) → Prop
  | none => v.tampered row = none
  | some (time, message) => (v.now < time + 3000 → v.tampered row = some message) ∧
      (v.NothingDue → time + 3000 ≤ v.now → v.tampered row = none)

/-- The mark and the alarm of a row after an attack. -/
def View.Marked (v : View) (alarm : Option Nat) (row : HashField) : Option (Nat × String) → Prop
  | none => v.tampered row = none
  | some (time, message) => (v.tampered row = some message ∧ alarm = some (time + 3000)) ∨
      (v.tampered row = none ∧ time + 3000 ≤ v.now)

theorem marked_later {v v' : View} {alarm : Option Nat} {row : HashField}
    {last : Option (Nat × String)} (h : v.Marked alarm row last) (hnow : v.now ≤ v'.now)
    (htampered : v'.tampered row = v.tampered row) : v'.Marked alarm row last := by
  unfold View.Marked at h ⊢
  rw [htampered]
  cases last with
  | none => exact h
  | some last =>
      rcases h with h | ⟨hnone, hlate⟩
      · exact Or.inl h
      · exact Or.inr ⟨hnone, hlate.trans hnow⟩

/-- The end of an attack comes when it is due. -/
theorem marked_attackOver {v v' : View} {due : Nat} {row : HashField}
    {last : Option (Nat × String)} (h : v.Marked (some due) row last) (hnow : v.now ≤ v'.now)
    (hdue : due ≤ v'.now) (htampered : v'.tampered row = none) (alarm : Option Nat) :
    v'.Marked alarm row last := by
  unfold View.Marked at h ⊢
  cases last with
  | none => exact htampered
  | some last =>
      rcases h with ⟨-, halarm⟩ | ⟨-, hlate⟩
      · rw [Option.some_inj] at halarm
        exact Or.inr ⟨htampered, halarm ▸ hdue⟩
      · exact Or.inr ⟨htampered, hlate.trans hnow⟩

theorem noteAttack_quiet (last : HashField → Option (Nat × String))
    {move : Move View (Nat × Act)} (hruns : move.after.browser.runs = move.before.browser.runs)
    (hact : ∀ a, move.input.2 ≠ .attack a) : noteAttack last move = last := by
  unfold noteAttack
  rw [if_neg (not_not_intro hruns)]
  split
  · rename_i a ha
    exact absurd ha (hact a)
  · rfl

/-- One step keeps the marks, by what it can do to them. -/
theorem marked_step {v v' : View} {alarms : Callback → Option Nat} {act : Nat × Act}
    {last : HashField → Option (Nat × String)} (hv : v.Timed alarms) (hsettled : v.Settled)
    (hmarked : ∀ row, v.Marked (alarms (.attackOver row)) row (last row))
    (h : v.step act = some v') :
    ∃ alarms', v'.Timed alarms' ∧ ∀ row, v'.Marked (alarms' (.attackOver row)) row
      (noteAttack last ⟨v, act, v'⟩ row) := by
  obtain ⟨hnow, hfollows⟩ := follows_step hv hsettled h
  obtain ⟨alarms', htimed', hturned⟩ := hfollows.turned
  refine ⟨alarms', htimed', ?_⟩
  intro row
  cases hturned with
  | reset hruns =>
      have hnote : noteAttack last ⟨v, act, v'⟩ row = none := by
        simp [noteAttack, hruns]
      rw [hnote]
      exact (htimed'.marks row).mpr rfl
  | quiet tick hact hruns htampered =>
      rw [noteAttack_quiet last hruns hact, Function.update_of_ne (by simp)]
      exact marked_later (hmarked row) hnow (congrFun htampered row)
  | attack a hact hbrowser htampered =>
      have hnote : noteAttack last ⟨v, act, v'⟩
          = Function.update last a.rowId (some (act.1, a.message)) := by
        unfold noteAttack
        rw [if_neg (by simp [hbrowser]), hact]
      rw [hnote]
      by_cases hrow : row = a.rowId
      · subst hrow
        rw [Function.update_self, Function.update_self]
        have hat : v'.now = act.1 := hfollows.now
        refine Or.inl ⟨?_, ?_⟩
        · rw [htampered, Function.update_self]
        · rw [hat]
      · rw [Function.update_of_ne hrow, Function.update_of_ne (by simpa using hrow)]
        apply marked_later (hmarked row) hnow
        rw [htampered, Function.update_of_ne hrow]
  | attackOver row' due hact hdue halarm hbrowser htampered =>
      rw [noteAttack_quiet last (congrArg Browser.runs hbrowser) hact]
      by_cases hrow : row = row'
      · subst hrow
        have hold := hmarked row
        rw [halarm] at hold
        apply marked_attackOver hold hnow hdue
        rw [htampered, Function.update_self]
      · rw [Function.update_of_ne (by simpa using hrow)]
        apply marked_later (hmarked row) hnow
        rw [htampered, Function.update_of_ne hrow]

/-- **The marks of the attacks.** In every run of the page a row is marked for three seconds after
the last attack on it, unless a task is submitted. A marked row has the one timer that ends its
mark, and without the attack simulator no row is marked. -/
theorem attack_marks {acts : List (Nat × Act)} {v : View}
    (hrun : run View.step View.start acts = some v) (row : HashField) :
    v.ShowsAttack row ((moves View.step View.start acts).foldl noteAttack (fun _ => none) row) ∧
      (v.tampered row ≠ none ↔ ∃ handle timer, v.timers.live handle = some timer ∧
        timer.call = .attackOver row) ∧
      (v.browser.page.attackSimulator = false → v.tampered row = none) := by
  have hstep : ∀ (s : View) (act : Nat × Act) (t : View) (last : HashField → Option (Nat × String)),
      (s.Settled ∧ ∃ alarms, s.Timed alarms ∧
          ∀ row, s.Marked (alarms (.attackOver row)) row (last row)) → s.step act = some t →
        t.Settled ∧ ∃ alarms, t.Timed alarms ∧
          ∀ row, t.Marked (alarms (.attackOver row)) row (noteAttack last ⟨s, act, t⟩ row) := by
    rintro s act t last ⟨hsettled, alarms, htimed, hmarked⟩ h
    exact ⟨(good_step ⟨hsettled, alarms, htimed⟩ h).1.1, marked_step htimed hsettled hmarked h⟩
  obtain ⟨hsettled, alarms, htimed⟩ := good_start
  obtain ⟨-, alarms', htimed', hmarked⟩ := run_history hstep
    (a := fun _ => none) ⟨hsettled, alarms, htimed, fun _ => rfl⟩ hrun
  refine ⟨?_, ?_, fun h => htimed'.hidden h row⟩
  · have hrow := hmarked row
    unfold View.Marked at hrow
    unfold View.ShowsAttack
    cases hlast : (moves View.step View.start acts).foldl noteAttack (fun _ => none) row with
    | none => simpa [hlast] using hrow
    | some last =>
        rw [hlast] at hrow
        rcases hrow with ⟨hshown, halarm⟩ | ⟨hnone, hlate⟩
        · refine ⟨fun _ => hshown, ?_⟩
          intro hdue hlate
          obtain ⟨handle, -, hlive⟩ := htimed'.schedules.live_of_alarm halarm
          have hsoon : v.now < last.1 + 3000 := hdue handle _ hlive
          omega
        · refine ⟨fun hsoon => ?_, fun _ _ => hnone⟩
          omega
  · rw [ne_eq, htimed'.marks row]
    constructor
    · intro halarm
      obtain ⟨due, hdue⟩ := Option.ne_none_iff_exists'.mp halarm
      obtain ⟨handle, -, hlive⟩ := htimed'.schedules.live_of_alarm hdue
      exact ⟨handle, _, hlive, rfl⟩
    · rintro ⟨handle, timer, hlive, hcall⟩
      have halarm := ((htimed'.schedules.live_iff handle timer).mp hlive).2.1
      rw [hcall] at halarm
      simp [halarm]

def changeQuestion : Attack :=
  ⟨"Change the question", .input, "input_hash breaks — proof rejects " ++
    "(on-chain verifier would revert with ProofInvalid)"⟩

/-- The second attack on the row comes before the end of the first one. -/
def twoAttacks : List (Nat × Act) :=
  [(0, .input (.enter "task")),
    (10, .input (.item 1 (.event (.complete (.number 1) (hashesOf "0x11"))))),
    (100, .attack changeQuestion), (2000, .attack changeQuestion), (4000, .input (.enter ""))]

theorem attack_marks_twice : ∃ v, run View.step View.start twoAttacks = some v ∧
    v.now = 4000 ∧ v.tampered .input = some changeQuestion.message := by
  refine ⟨_, rfl, rfl, ?_⟩
  have hmarks : (4000 < 2000 + 3000 → _ = some changeQuestion.message) ∧ _ :=
    (@attack_marks twoAttacks _ rfl .input).1
  exact hmarks.1 (by decide)

end ProvenoOracle.Demo
