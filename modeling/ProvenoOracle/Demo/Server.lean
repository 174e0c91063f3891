import ProvenoOracle.Demo.EventStream
import ProvenoOracle.Effect.Channel
import ProvenoOracle.Effect.Pool
import ProvenoOracle.Prove.RetryLoop

/-! # The demo server

`lib.rs`: a semaphore bounds the runs that are under way. A request that gets a permit starts a
run on a thread of its own, with a channel to the client; the thread keeps the permit until the
run has ended. Other requests are turned away.

Requests, the runs' threads and the clients take turns in any order. The permits are conserved and
each client is sent the events of its own run (`server_safety`, `server_run_alone`), a server
that is left alone comes to rest with all permits back (`server_comes_to_rest`), and a page that
has read any part of its stream has handled the first events of its run (`page_handles_run`).
-/

set_option autoImplicit false

namespace ProvenoOracle.Demo

open Effect Codec

/-! ## The server -/

/-- `MAX_CONCURRENT_RUNS` -/
def MAX_CONCURRENT_RUNS : Nat := 5

/-- What the channel of a run holds: `mpsc::channel::<DemoEvent>(32)`. -/
def channelCapacity : Nat := 32

/-- A run that was started: its request, what it meets, and its channel. -/
structure DemoRun (C : ProvenoCrates) where
  world : World C
  task : String
  link : Link DemoEvent

/-- The server: the free permits of `run_semaphore`, and the runs it has started. -/
abbrev Server (C : ProvenoCrates) : Type 1 := Pool (DemoRun C)

/-- The answer to a request. -/
inductive Reply where
  /-- The stream of this run. -/
  | stream (i : Nat)
  | tooManyRequests
  deriving DecidableEq

/-- What happens at a server: a request, or a step of a run or its client. -/
inductive ServerStep (C : ProvenoCrates) where
  | request (w : World C) (task : String)
  | move (i : Nat) (m : LinkMove)

section Server

variable {C : ProvenoCrates}

/-- The thread of a run before its first event. -/
def DemoRun.spawn (w : World C) (task : String) : DemoRun C :=
  ⟨w, task, Link.start (runPipeline w none task)⟩

/-- A step of a run or its client. -/
def DemoRun.step (r : DemoRun C) (m : LinkMove) : Option (DemoRun C) :=
  (r.link.step channelCapacity m).map fun link => { r with link := link }

/-- Runs hold their permit as long as `run_pipeline` is at work. -/
def demoRuns : JobKind (DemoRun C) LinkMove where
  step := DemoRun.step
  holds r := r.link.working
  ended := by
    intro r m r' h hended
    obtain ⟨link, hlink, rfl⟩ := Option.map_eq_some_iff.mp h
    exact Link.working_of_step hlink hended

/-- `app_with_max_runs` -/
def appWithMaxRuns (maxRuns : Nat) : Server C := Pool.start maxRuns

/-- `app` -/
def app : Server C := appWithMaxRuns MAX_CONCURRENT_RUNS

variable (chainConfig : ChainConfig)

/-- The run of a request, which checks its proof on the chain of the server. -/
def requested (w : World C) (task : String) : DemoRun C :=
  DemoRun.spawn { w with chainConfig := chainConfig } task

/-- `run`: the handler of a request. -/
def Server.run (s : Server C) (w : World C) (task : String) : Reply × Server C :=
  match s.accept (requested chainConfig w task) with
  | none => (.tooManyRequests, s)
  | some s' => (.stream s.jobs.length, s')

/-- One step of the server, if it is possible. -/
def Server.step (s : Server C) : ServerStep C → Option (Server C)
  | .request w task => some (s.run chainConfig w task).2
  | .move i m => s.move demoRuns i m

/-! ## The server as a pool -/

/-- What a step of the server is to the pool of its runs. -/
def ServerStep.inPool : ServerStep C → PoolStep (DemoRun C) LinkMove
  | .request w task => .arrive (requested chainConfig w task)
  | .move i m => .move i m

theorem step_inPool (s : Server C) (a : ServerStep C) :
    s.step chainConfig a = Pool.step demoRuns s (a.inPool chainConfig) := by
  cases a with
  | request w task =>
      show some (s.run chainConfig w task).2 = some ((s.accept _).getD s)
      unfold Server.run
      cases s.accept (requested chainConfig w task) <;> rfl
  | move i m => rfl

variable {chainConfig} {maxRuns : Nat} {steps : List (ServerStep C)} {s : Server C}

/-- The server that some steps have led to. -/
def Reaches (chainConfig : ChainConfig) (maxRuns : Nat) (steps : List (ServerStep C))
    (s : Server C) : Prop :=
  run (Server.step chainConfig) (appWithMaxRuns maxRuns) steps = some s

theorem Reaches.inPool (h : Reaches chainConfig maxRuns steps s) :
    run (Pool.step demoRuns) (Pool.start maxRuns)
      (steps.map (ServerStep.inPool chainConfig)) = some s := by
  have hstep : Server.step (C := C) chainConfig
      = fun s a => Pool.step demoRuns s (a.inPool chainConfig) := by
    funext s a
    exact step_inPool chainConfig s a
  rw [Reaches, hstep] at h
  rw [run_map]
  exact h

/-- Only requests bring new runs. -/
theorem arrive_mem {job : DemoRun C}
    (h : .arrive job ∈ steps.map (ServerStep.inPool chainConfig)) :
    ∃ w task, .request w task ∈ steps ∧ job = requested chainConfig w task := by
  obtain ⟨a, ha, hjob⟩ := List.mem_map.mp h
  cases a with
  | request w task =>
      refine ⟨w, task, ha, ?_⟩
      injection hjob with hjob
      exact hjob.symm
  | move i m => cases hjob

/-! ## The events of a run -/

theorem cuts_atStage {α : Type} (stage : String) (x : Except String α) :
    Script.Cuts disconnected fun _ => atStage stage x :=
  Script.Cuts.ofExcept _ x

theorem runPipelineInner_cuts (w : World C) (task : String) :
    Script.Cuts disconnected fun limit => runPipelineInner w limit task := by
  unfold runPipelineInner
  -- generating
  refine (Script.Cuts.send _).bind fun _ => ?_
  refine (cuts_atStage _ _).bind fun apiKey => ?_
  refine (cuts_atStage _ _).bind fun response => ?_
  refine (Script.Cuts.send _).bind fun _ => ?_
  -- compiling
  refine (Script.Cuts.send _).bind fun _ => ?_
  refine (cuts_atStage _ _).bind fun program => ?_
  -- executing
  refine (Script.Cuts.send _).bind fun _ => ?_
  refine (cuts_atStage _ _).bind fun output => ?_
  refine (Script.Cuts.sendAll _).bind fun _ => ?_
  -- proving
  refine (Script.Cuts.send _).bind fun _ => ?_
  refine (cuts_atStage _ _).bind fun tmp => ?_
  refine (cuts_atStage _ _).bind fun circuitDir => ?_
  refine (cuts_atStage _ _).bind fun artifacts => ?_
  refine (cuts_atStage _ _).bind fun noir => ?_
  refine (cuts_atStage _ _).bind fun inputs => ?_
  refine (Script.Cuts.send _).bind fun _ => ?_
  -- verifying on chain
  refine (Script.Cuts.send _).bind fun _ => ?_
  refine (cuts_atStage _ _).bind fun _ => ?_
  refine (cuts_atStage _ _).bind fun verdict => ?_
  refine (Script.Cuts.send _).bind fun _ => ?_
  exact Script.Cuts.pure ()

/-- **A client that goes away has been sent the first events of the run.** -/
theorem runPipeline_cut (w : World C) (task : String) (k : Nat) :
    runPipeline w (some k) task = (runPipeline w none task).take k :=
  (runPipelineInner_cuts w task).reporting StageError.event k

/-- A part of the events from the front is what a client that goes away is sent. -/
theorem eq_runPipeline_of_prefix {w : World C} {task : String} {events : List DemoEvent}
    (h : events <+: runPipeline w none task) :
    events = runPipeline w (some events.length) task := by
  rw [runPipeline_cut]
  exact List.prefix_iff_eq_take.mp h

/-- What is true of a run and its channel at any moment. -/
structure DemoRun.Sound (r : DemoRun C) : Prop where
  /-- The channel has accepted what the pipeline sends to a client that goes away now. -/
  accepted : r.link.accepted = runPipeline r.world (some r.link.accepted.length) r.task
  bounded : r.link.buffer.length ≤ channelCapacity
  /-- The client gets what was accepted, in order. -/
  delivered : r.link.delivered <+: r.link.accepted
  /-- Nothing is lost on the way to a client that is there. -/
  inOrder : r.link.connected = true → r.link.delivered ++ r.link.buffer = r.link.accepted
  /-- A run that is over has sent everything, unless its client has left or it has crashed. -/
  ended : r.link.working = false → r.link.connected = true → r.link.producer ≠ .crashed →
    r.link.accepted = runPipeline r.world none r.task

/-- The invariant of the link of a run. -/
def DemoRun.Inv (r : DemoRun C) : Prop :=
  Link.Inv channelCapacity (runPipeline r.world none r.task) r.link

theorem DemoRun.Inv.keep (r : DemoRun C) (m : LinkMove) (r' : DemoRun C) (hr : r.Inv)
    (h : r.step m = some r') : r'.Inv := by
  obtain ⟨link, hlink, rfl⟩ := Option.map_eq_some_iff.mp h
  exact Link.Inv.keep hr hlink

theorem Reaches.inv (h : Reaches chainConfig maxRuns steps s) : ∀ r ∈ s.jobs, r.Inv := by
  refine Pool.jobs_invariant ?_ DemoRun.Inv.keep h.inPool
  intro job hjob
  obtain ⟨w, task, -, rfl⟩ := arrive_mem hjob
  exact Link.Inv.start _ _

theorem DemoRun.Inv.sound {r : DemoRun C} (hr : r.Inv) : r.Sound where
  accepted := eq_runPipeline_of_prefix ⟨r.link.todo, hr.script⟩
  bounded := hr.bounded
  delivered := hr.delivered
  inOrder := hr.inOrder
  ended := by
    intro hended hconnected hcrash
    have htodo : r.link.todo = [] := by
      cases hproducer : r.link.producer with
      | working => exact absurd hproducer (of_decide_eq_false hended)
      | finished => exact hr.finished hproducer
      | stopped => exact absurd ((hr.stopped hproducer).symm.trans hconnected) nofun
      | crashed => exact absurd hproducer hcrash
    have hscript := hr.script
    rwa [htodo, List.append_nil] at hscript

/-! ## A server without an API key -/

/-- A chain that nobody listens to. -/
def stubChainConfig : ChainConfig :=
  ⟨"http://127.0.0.1:1", 31337, "0x0000000000000000000000000000000000000000", none⟩

/-- A run that finds no API key. -/
def keylessWorld : World plainCrates where
  lua := plainCompiler
  apiKey := none
  anthropicModel := none
  generate _ _ _ := .error "no key"
  host _ := ()
  record _ := ⟨"", [], [], .ok⟩
  returnValue _ := .number 3
  tempDir := .ok "/tmp/run"
  circuitDir := .ok "noir"
  env := quietEnv
  chainConfig := stubChainConfig
  chain := ⟨fun _ => .ok (), fun _ _ => .ok true⟩
  runtime := .ok ()

/-- Its two events. -/
def keylessEvents : List DemoEvent :=
  [.generatingLua "What is 1 + 1?",
    .error "ANTHROPIC_API_KEY environment variable not set" "generating_lua"]

/-- Two requests to a server with one permit; the first one is served to its end. -/
def keylessSteps : List (ServerStep plainCrates) :=
  [.request keylessWorld "What is 1 + 1?", .move 0 .send, .request keylessWorld "saturated",
    .move 0 .read, .move 0 .send, .move 0 .finish, .move 0 .read]

/-- The first run at its end. -/
def keylessRun : DemoRun plainCrates :=
  ⟨keylessWorld, "What is 1 + 1?", ⟨[], keylessEvents, [], keylessEvents, true, .finished⟩⟩

/-- The server that the steps lead to. -/
def keylessServer : Server plainCrates := ⟨1, [keylessRun]⟩

theorem keyless_reaches : Reaches stubChainConfig 1 keylessSteps keylessServer := rfl

/-! ## Safety -/

/-- The runs under way. -/
def Server.running (s : Server C) : Nat := s.jobs.countP fun r => r.link.working

theorem Reaches.conserved (h : Reaches chainConfig maxRuns steps s) :
    s.permits + s.running = maxRuns := by
  refine Pool.conserved (K := demoRuns) ?_ h.inPool
  intro job hjob
  obtain ⟨w, task, -, rfl⟩ := arrive_mem hjob
  rfl

/-- A request is turned away when no permit is free. -/
theorem run_tooManyRequests_iff (w : World C) (task : String) :
    (s.run chainConfig w task).1 = .tooManyRequests ↔ s.permits = 0 := by
  unfold Server.run Pool.accept
  by_cases hfree : s.permits = 0
  · rw [if_pos hfree]
    exact iff_of_true rfl hfree
  · rw [if_neg hfree]
    exact iff_of_false nofun hfree

/-- **The server keeps its word in every interleaving**: no permit is lost, never more than
`maxRuns` runs are under way, a request is turned away exactly when that many are, and each
client gets the events of its run. -/
theorem server_safety (h : Reaches chainConfig maxRuns steps s) :
    s.permits + s.running = maxRuns ∧
      (∀ w task, (s.run chainConfig w task).1 = .tooManyRequests ↔ s.running = maxRuns) ∧
      ∀ r ∈ s.jobs, r.Sound := by
  have hpermits := h.conserved
  refine ⟨hpermits, ?_, fun r hr => (h.inv r hr).sound⟩
  intro w task
  rw [run_tooManyRequests_iff]
  omega

theorem server_safety_keyless :
    keylessServer.permits + keylessServer.running = 1 ∧
      (∀ w task, (keylessServer.run stubChainConfig w task).1 = .tooManyRequests ↔
        keylessServer.running = 1) ∧
      ∀ r ∈ keylessServer.jobs, r.Sound :=
  server_safety keyless_reaches

/-- The second request came while the first run held the permit. -/
example : (run (Server.step stubChainConfig) (appWithMaxRuns 1) (keylessSteps.take 2)).map
    (fun s => (s.run stubChainConfig keylessWorld "saturated").1) = some .tooManyRequests := rfl

/-! ## Runs do not disturb each other -/

/-- The steps of a run and its client. -/
def runMoves (i : Nat) (steps : List (ServerStep C)) : List LinkMove :=
  steps.filterMap fun
    | .request _ _ => none
    | .move j m => if j = i then some m else none

theorem runMoves_eq (i : Nat) (steps : List (ServerStep C)) :
    Pool.movesOf i (steps.map (ServerStep.inPool chainConfig)) = runMoves i steps := by
  rw [Pool.movesOf, List.filterMap_map, runMoves]
  apply List.filterMap_congr
  intro a _
  cases a <;> rfl

/-- The steps of a run are steps of its link. -/
theorem run_link {moves : List LinkMove} :
    ∀ {r r' : DemoRun C}, run DemoRun.step r moves = some r' →
      r'.world = r.world ∧ r'.task = r.task ∧
        run (Link.step channelCapacity) r.link moves = some r'.link := by
  induction moves with
  | nil =>
      intro r r' h
      cases h
      exact ⟨rfl, rfl, rfl⟩
  | cons m moves ih =>
      intro r r' h
      obtain ⟨t, ht, hrest⟩ := run_cons.mp h
      obtain ⟨link, hlink, rfl⟩ := Option.map_eq_some_iff.mp ht
      obtain ⟨hworld, htask, hrun⟩ := ih hrest
      exact ⟨hworld, htask, run_cons.mpr ⟨link, hlink, hrun⟩⟩

/-- **Each run goes as it would go alone**: it belongs to a request, it is checked on the chain of
the server, and its channel is where its own steps and those of its client have brought it,
whatever the other runs do. -/
theorem server_run_alone (h : Reaches chainConfig maxRuns steps s) {i : Nat} {r : DemoRun C}
    (hr : s.jobs[i]? = some r) :
    ∃ w, .request w r.task ∈ steps ∧ r.world = { w with chainConfig := chainConfig } ∧
      run (Link.step channelCapacity) (Link.start (runPipeline r.world none r.task))
        (runMoves i steps) = some r.link := by
  obtain ⟨fresh, harrive, hway⟩ := Pool.job_run h.inPool hr
  obtain ⟨w, task, hrequest, rfl⟩ := arrive_mem harrive
  rw [runMoves_eq] at hway
  obtain ⟨hworld, htask, hlink⟩ := run_link hway
  rw [hworld, htask]
  exact ⟨w, hrequest, rfl, hlink⟩

theorem server_run_alone_keyless :
    ∃ w, .request w keylessRun.task ∈ keylessSteps ∧
      keylessRun.world = { w with chainConfig := stubChainConfig } ∧
      run (Link.step channelCapacity)
        (Link.start (runPipeline keylessRun.world none keylessRun.task))
        (runMoves 0 keylessSteps) = some keylessRun.link :=
  server_run_alone keyless_reaches (i := 0) rfl

/-! ## Coming to rest -/

/-- The steps that a server takes without new requests, clients that leave and crashes. -/
def ServerStep.ordinary : ServerStep C → Bool
  | .request _ _ => false
  | .move _ m => m.ordinary

/-- Nothing is left to do. -/
def AtRest (chainConfig : ChainConfig) (s : Server C) : Prop :=
  ∀ a, ServerStep.ordinary a = true → s.step chainConfig a = none

/-- What is left to do. -/
def Server.rank (s : Server C) : Nat := Pool.rank (fun r => r.link.rank) s

/-- Every step but a request uses something up. -/
theorem Server.rank_lt {s s' : Server C} {i : Nat} {m : LinkMove}
    (h : s.step chainConfig (.move i m) = some s') : s'.rank < s.rank := by
  refine Pool.rank_lt (K := demoRuns) ?_ h
  intro r r' hstep
  obtain ⟨link, hlink, rfl⟩ := Option.map_eq_some_iff.mp hstep
  exact Link.rank_lt hlink

/-- The link of a run of a server at rest is at rest. -/
theorem AtRest.link (h : AtRest chainConfig s) {r : DemoRun C} (hr : r ∈ s.jobs) :
    ∀ m, LinkMove.ordinary m = true → r.link.step channelCapacity m = none := by
  intro m hm
  obtain ⟨i, hi⟩ := List.mem_iff_getElem?.mp hr
  have hmove : DemoRun.step r m = none := Pool.move_eq_none hi (h (.move i m) hm)
  exact Option.map_eq_none_iff.mp hmove

theorem channelCapacity_pos : 0 < channelCapacity := by decide

/-- **A server that is left alone comes to rest**: without new requests there are at most `s.rank`
steps, those of clients that leave and of runs that crash included, and ordinary steps lead to a
server at rest. Then all permits are back, and every client that has stayed has been sent all events
of its run, if the run has not crashed. -/
theorem server_comes_to_rest (h : Reaches chainConfig maxRuns steps s) :
    (∀ moves s', (∀ w task, .request w task ∉ moves) →
      run (Server.step chainConfig) s moves = some s' → moves.length ≤ s.rank) ∧
    (∃ moves s', (∀ a ∈ moves, a.ordinary = true) ∧
      run (Server.step chainConfig) s moves = some s' ∧ AtRest chainConfig s') ∧
    (AtRest chainConfig s → s.permits = maxRuns ∧
      ∀ r ∈ s.jobs, r.link.connected = true → r.link.producer ≠ .crashed →
        r.link.delivered = runPipeline r.world none r.task) := by
  have hlower : ∀ a : ServerStep C, (∀ w task, a ≠ .request w task) → ∀ t t' : Server C,
      t.step chainConfig a = some t' → t'.rank < t.rank := by
    intro a ha t t' hstep
    cases a with
    | request w task => exact absurd rfl (ha w task)
    | move i m => exact Server.rank_lt hstep
  have hordinary : ∀ a : ServerStep C, a.ordinary = true → ∀ w task, a ≠ .request w task := by
    rintro a ha w task rfl
    cases ha
  refine ⟨?_, exists_run_settled (fun a ha => hlower a (hordinary a ha)) s, ?_⟩
  · intro moves s' hmoves hrun
    have hmove : ∀ a ∈ moves, ∀ w task, a ≠ .request w task := by
      rintro a ha w task rfl
      exact hmoves w task ha
    have hlength := run_length_le (fun a ha => hlower a (hmove a ha)) hrun
    omega
  · intro hrest
    have hnone : s.running = 0 := by
      refine List.countP_eq_zero.mpr ?_
      intro r hr hworking
      exact (Link.at_rest channelCapacity_pos (hrest.link hr)).1 (of_decide_eq_true hworking)
    have hpermits := h.conserved
    refine ⟨by omega, ?_⟩
    intro r hr
    exact (h.inv r hr).all_delivered channelCapacity_pos (hrest.link hr)

theorem server_comes_to_rest_keyless :
    (∀ moves s', (∀ w task, .request w task ∉ moves) →
      run (Server.step stubChainConfig) keylessServer moves = some s' →
        moves.length ≤ keylessServer.rank) ∧
    (∃ moves s', (∀ a ∈ moves, ServerStep.ordinary a = true) ∧
      run (Server.step stubChainConfig) keylessServer moves = some s' ∧
        AtRest stubChainConfig s') ∧
    (AtRest stubChainConfig keylessServer → keylessServer.permits = 1 ∧
      ∀ r ∈ keylessServer.jobs, r.link.connected = true → r.link.producer ≠ .crashed →
        r.link.delivered = runPipeline r.world none r.task) :=
  server_comes_to_rest keyless_reaches

end Server

/-! ## The page of a client -/

section Page

variable {D : TextDecoder} {J : EventJson}

/-- What is decoded does not depend on what comes later. -/
theorem decodeAll_prefix (later : List Bytes) : ∀ (values : List Bytes) (d : D.State),
    D.decodeAll d values <+: D.decodeAll d (values ++ later) := by
  intro values
  induction values with
  | nil => exact fun _ => List.nil_prefix
  | cons value values ih =>
      intro d
      exact (List.prefix_cons_inj _).mpr (ih (D.decode d value).2)

variable {frames : List SseFrame} {chunks : List Bytes}

/-- **A page that has read a part of its stream** has handled the first of the events in it. -/
theorem handled_prefix (hD : D.Streams) (hjson : ∀ e, .event e ∈ frames → J.Carries e)
    (hchunks : chunks.flatten <+: charBytes (streamText J frames)) :
    (readAll D J chunks).handled
      <+: (frames.filterMap SseFrame.event?).map DemoEvent.parsed := by
  obtain ⟨rest, hrest⟩ := hchunks
  -- the text so far is the front of the text of the stream
  have hwhole : (D.decodeAll D.init (chunks ++ [rest])).flatten = streamText J frames := by
    refine hD _ _ (streamText_head J frames) ?_
    rw [List.flatten_append, List.flatten_singleton, hrest]
  obtain ⟨later, hlater⟩ := decodeAll_prefix [rest] chunks D.init
  rw [← hlater, List.flatten_append] at hwhole
  -- so the frames cut off it are the first ones
  have hbodies : (frameReader.drain (D.decodeAll D.init chunks).flatten).1
      <+: frames.map (·.body J) := by
    have hdrain := drain_streamText fun e he => (hjson e he).oneLine
    rw [← hwhole, PieceReader.drain_append] at hdrain
    exact ⟨_, congrArg Prod.fst hdrain⟩
  rw [(readAll_eq J chunks).1, ← flatMap_frameEvents hjson]
  exact hbodies.flatMap _

variable {C : ProvenoCrates} {chainConfig : ChainConfig} {maxRuns : Nat}
  {steps : List (ServerStep C)} {s : Server C}

/-- **From the run to the page**: at any moment, in any interleaving and wherever the bytes are
cut, a page has handled the first events of its own run, as JSON carries them, and no others. When
the server is at rest, the run has not crashed, and the page has stayed and read all its bytes, it
has handled them all. -/
theorem page_handles_run (h : Reaches chainConfig maxRuns steps s) {r : DemoRun C}
    (hr : r ∈ s.jobs) (hD : D.Streams)
    (hframes : frames.filterMap SseFrame.event? = r.link.delivered)
    (hjson : ∀ e, .event e ∈ frames → J.Carries e)
    (hchunks : chunks.flatten <+: charBytes (streamText J frames)) :
    (readAll D J chunks).handled <+: (runPipeline r.world none r.task).map DemoEvent.parsed ∧
      (AtRest chainConfig s → r.link.connected = true → r.link.producer ≠ .crashed →
        chunks.flatten = charBytes (streamText J frames) →
        (readAll D J chunks).handled = (runPipeline r.world none r.task).map DemoEvent.parsed) := by
  have hinv : r.Inv := h.inv r hr
  constructor
  · have hprefix := handled_prefix hD hjson hchunks
    rw [hframes] at hprefix
    exact hprefix.trans (hinv.delivered_prefix.map _)
  · intro hrest hconnected hcrash hall
    rw [(readAll_streamText J hD hjson hall).1, hframes]
    exact congrArg (List.map DemoEvent.parsed)
      (hinv.all_delivered channelCapacity_pos (hrest.link hr) hconnected hcrash)

/-- The frames of the stream of a run without an API key. -/
def keylessFrames : List SseFrame :=
  .keepAlive ⟨[], List.not_mem_nil⟩ [] :: keylessEvents.map .event

theorem page_handles_run_keyless :
    let J := jsonOf keylessEvents
    let bytes := charBytes (streamText J keylessFrames)
    (readAll streamDecoder J [bytes.take 20, (bytes.drop 20).take 70]).handled
      <+: (runPipeline keylessRun.world none keylessRun.task).map DemoEvent.parsed := by
  intro J bytes
  have hframes : keylessFrames.filterMap SseFrame.event? = keylessRun.link.delivered := rfl
  refine (page_handles_run keyless_reaches (List.mem_singleton_self keylessRun)
    streamDecoder_streams hframes ?_ ?_).1
  · intro e he
    exact jsonOf_carries (by decide +kernel) (by simpa [keylessFrames] using he)
  · refine ⟨(bytes.drop 20).drop 70, ?_⟩
    rw [List.flatten_cons, List.flatten_singleton, List.append_assoc, List.take_append_drop,
      List.take_append_drop]

end Page

end ProvenoOracle.Demo
