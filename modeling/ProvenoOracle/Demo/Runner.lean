import ProvenoOracle.Demo.JsonValue
import ProvenoOracle.Demo.OnChain
import ProvenoOracle.Effect.Script
import ProvenoOracle.Prove.Compile
import ProvenoOracle.Tools.KeyValue

/-! # A demo run and its events

`runner.rs`: the demo server runs the whole pipeline for one task and streams an event before
each of its stages. Every call that can fail carries the name of a stage by hand, the client may
go away at any moment, and a failure is streamed as one last event.

The run follows a script of events (`runPipelineInner_follows`), so what the client gets keeps to
the protocol (`demo_event_protocol`).
-/

set_option autoImplicit false

namespace ProvenoOracle.Demo

open Effect

/-! ## Events -/

/-- `DemoEvent`. Numbers are those of its JSON, on the server and on the page. -/
inductive DemoEvent where
  | generatingLua (prompt : String)
  | luaReady (lua : String)
  | compiling
  | executing
  | toolCall (name args response : String)
  | proving
  | complete (result : JsonValue) (hashes : ProofHashes)
  | error (message atStage : String)
  | verifyingOnChain (chainId : Nat) (verifierAddr : String) (explorerBase : Option String)
  | verifiedOnChain (accepted : Bool) (reason txHash : Option String)
  deriving DecidableEq

/-- The serialized stage name of an event. -/
def DemoEvent.stage : DemoEvent → String
  | .generatingLua _ => "generating_lua"
  | .luaReady _ => "lua_ready"
  | .compiling => "compiling"
  | .executing => "executing"
  | .toolCall _ _ _ => "tool_call"
  | .proving => "proving"
  | .complete _ _ => "complete"
  | .error _ _ => "error"
  | .verifyingOnChain _ _ _ => "verifying_on_chain"
  | .verifiedOnChain _ _ _ => "verified_on_chain"

/-- `StageError` -/
structure StageError where
  message : String
  atStage : String

/-- The error of a send. -/
def disconnected : StageError := ⟨"client disconnected", "send"⟩

/-- The event of an error. -/
def StageError.event (e : StageError) : DemoEvent := .error e.message e.atStage

/-- The event of a tool call. -/
def toolCallEvent (record : ToolCallRecord) : DemoEvent :=
  .toolCall record.toolName (fromUtf8Lossy record.argsCanonical)
    (fromUtf8Lossy record.responseCanonical)

/-! ## The run -/

/-- What a run meets: the environment variables, the language model, the machine and its tools,
the prover and the chain. -/
structure World (C : ProvenoCrates) where
  lua : LuaCompiler C
  /-- `ANTHROPIC_API_KEY` -/
  apiKey : Option String
  /-- `ANTHROPIC_MODEL` -/
  anthropicModel : Option String
  /-- `client.generate`, for a key and a model. -/
  generate : String → String → List Message → Except String LlmResponse
  /-- How a `LiveHost` answers during the run. -/
  host : LiveHost → C.Host
  /-- The fields of a transcript record. -/
  record : C.Record → ToolCallRecord
  /-- `format_return_value`, on the return value of an output. -/
  returnValue : C.Output → JsonValue
  /-- `tempfile::tempdir` -/
  tempDir : Except String String
  /-- `locate_circuit_dir` -/
  circuitDir : Except String String
  env : Env C
  chainConfig : ChainConfig
  chain : Chain
  /-- Building the runtime for the chain call. -/
  runtime : Except String Unit

/-- `ok_or` -/
def okOr {α : Type} (x : Option α) (e : String) : Except String α :=
  match x with
  | some a => .ok a
  | none => .error e

/-- `vm_config` -/
def vmConfig (default : VmConfig) : VmConfig :=
  { default with gasLimit := 1000000, maxToolCalls := 10 }

/-- How a verdict is shown. -/
def acceptedAndReason : VerifyResult → Bool × Option String
  | .accepted => (true, none)
  | .rejected reason => (false, some reason)

/-- A call whose error is labelled with a stage. -/
def atStage {α : Type} (stage : String) (x : Except String α) :
    Fallible (List DemoEvent) StageError α :=
  Fallible.ofExcept (fun e => ⟨e, stage⟩) x

section Run

variable {C : ProvenoCrates} (w : World C)

/-- `run_pipeline_inner`, for a client that accepts `limit` events. -/
def runPipelineInner (limit : Option Nat) (task : String) :
    Fallible (List DemoEvent) StageError Unit := do
  let send := Script.send limit disconnected
  send (.generatingLua task)
  let apiKey ← atStage "generating_lua"
    (okOr w.apiKey "ANTHROPIC_API_KEY environment variable not set")
  let model := w.anthropicModel.getD "claude-sonnet-4-6"
  let response ← atStage "generating_lua"
    ((w.generate apiKey model [⟨"user", task⟩]).mapError fun e => s!"LLM generation failed: {e}")
  let source := stripCodeFences response.text
  send (.luaReady source)
  send .compiling
  let program ← atStage "compiling" ((compileAndVerify w.lua source).mapError PipelineError.text)
  send .executing
  let output ← atStage "executing"
    ((execute C program C.nil (vmConfig C.defaultConfig) (w.host LiveHost.new)).mapError
      PipelineError.text)
  Script.sendAll limit disconnected
    ((C.transcript output).map fun record => toolCallEvent (w.record record))
  send .proving
  let tmp ← atStage "proving" (w.tempDir.mapError fun e => s!"failed to create temp dir: {e}")
  let circuitDir ← atStage "proving" w.circuitDir
  let artifacts ← atStage "proving"
    (buildProofArtifactsWithNoir C w.env program source C.nil output [] tmp circuitDir
      fun _ => none).1
  let noir ← atStage "proving" (okOr artifacts.noirProof "noir proof artifact missing")
  let inputs ← atStage "proving" (publicInputs artifacts.publicInputs noir.publicInputsHex)
  send (.complete (w.returnValue output) (proofHashes artifacts.publicInputs))
  send (.verifyingOnChain w.chainConfig.chainId.toNat w.chainConfig.verifierAddr
    w.chainConfig.explorerBase)
  let _ ← atStage "verifying_on_chain"
    (w.runtime.mapError fun e => s!"failed to build tokio runtime: {e}")
  let verdict ← atStage "verifying_on_chain"
    ((verifyOnChain w.chain w.chainConfig noir.proofBytes inputs).mapError ChainError.text)
  send (.verifiedOnChain (acceptedAndReason verdict).1 (acceptedAndReason verdict).2 none)
  return ()

/-- `run_pipeline`: the events that the channel accepts. -/
def runPipeline (limit : Option Nat) (task : String) : List DemoEvent :=
  Script.reporting limit StageError.event (runPipelineInner w limit task)

end Run

/-! ## The script of a run -/

/-- What the events of a run that gets through carry. -/
structure Course where
  lua : String
  calls : List ToolCallRecord
  result : JsonValue
  hashes : ProofHashes
  verdict : VerifyResult

section Courses

variable {C : ProvenoCrates} (w : World C) (task : String)

/-- **The event protocol**: the events of a run that gets through. -/
def Course.events (c : Course) : List DemoEvent :=
  .generatingLua task :: .luaReady c.lua :: .compiling :: .executing ::
    (c.calls.map toolCallEvent ++ [.proving, .complete c.result c.hashes,
      .verifyingOnChain w.chainConfig.chainId.toNat w.chainConfig.verifierAddr
        w.chainConfig.explorerBase,
      .verifiedOnChain (acceptedAndReason c.verdict).1 (acceptedAndReason c.verdict).2 none])

/-- The source that a run compiles, if it gets that far. -/
def World.source : Option String := do
  let apiKey ← w.apiKey
  let response ← (w.generate apiKey (w.anthropicModel.getD "claude-sonnet-4-6")
    [⟨"user", task⟩]).toOption
  return stripCodeFences response.text

/-- The output of the program. -/
def World.output : Option C.Output := do
  let source ← w.source task
  let program ← (compileAndVerify w.lua source).toOption
  (execute C program C.nil (vmConfig C.defaultConfig) (w.host LiveHost.new)).toOption

/-- The proof of the run. -/
def World.artifacts : Option ProveArtifacts := do
  let source ← w.source task
  let program ← (compileAndVerify w.lua source).toOption
  let output ← w.output task
  let tmp ← w.tempDir.toOption
  let circuitDir ← w.circuitDir.toOption
  (buildProofArtifactsWithNoir C w.env program source C.nil output [] tmp circuitDir
    fun _ => none).1.toOption

/-- The verdict of the chain. -/
def World.verdict : Option VerifyResult := do
  let artifacts ← w.artifacts task
  let noir ← artifacts.noirProof
  let inputs ← (publicInputs artifacts.publicInputs noir.publicInputsHex).toOption
  (verifyOnChain w.chain w.chainConfig noir.proofBytes inputs).toOption

/-- The course carries what the run has computed, as far as it gets. -/
structure Course.Fits (c : Course) : Prop where
  lua : ∀ source, w.source task = some source → c.lua = source
  calls : ∀ output, w.output task = some output → c.calls = (C.transcript output).map w.record
  result : ∀ output, w.output task = some output → c.result = w.returnValue output
  hashes : ∀ artifacts, w.artifacts task = some artifacts →
    c.hashes = proofHashes artifacts.publicInputs
  verdict : ∀ verdict, w.verdict task = some verdict → c.verdict = verdict

/-- What is not computed is arbitrary. -/
theorem exists_of_option {α β : Type} (b : β) (x : Option α) (f : α → β) :
    ∃ b', ∀ a, x = some a → b' = f a := by
  cases x with
  | none => exact ⟨b, fun _ h => nomatch h⟩
  | some a => exact ⟨f a, fun a' h => congrArg f (Option.some.inj h)⟩

theorem exists_fits : ∃ c : Course, c.Fits w task := by
  rcases exists_of_option "" (w.source task) id with ⟨lua, hlua⟩
  rcases exists_of_option [] (w.output task) fun o => (C.transcript o).map w.record with
    ⟨calls, hcalls⟩
  rcases exists_of_option .null (w.output task) w.returnValue with ⟨result, hresult⟩
  rcases exists_of_option ⟨"", "", "", "", "", ""⟩ (w.artifacts task)
    (fun a => proofHashes a.publicInputs) with ⟨hashes, hhashes⟩
  rcases exists_of_option .accepted (w.verdict task) id with ⟨verdict, hverdict⟩
  exact ⟨⟨lua, calls, result, hashes, verdict⟩, hlua, hcalls, hresult, hhashes, hverdict⟩

/-- The events that a failure can come after: something is under way. -/
def DemoEvent.mayFail : DemoEvent → Bool
  | .generatingLua _ => true
  | .compiling => true
  | .executing => true
  | .proving => true
  | .verifyingOnChain _ _ _ => true
  | _ => false

/-- The error names the stage of the event. -/
def Blames (ev : DemoEvent) (e : StageError) : Prop := ev.mayFail = true ∧ e.atStage = ev.stage

theorem okOr_ok {α : Type} {x : Option α} {e : String} {a : α} (h : okOr x e = .ok a) :
    x = some a := by
  cases x with
  | none => cases h
  | some b => exact congrArg some (Except.ok.inj h)

theorem mapError_ok {α δ ε : Type} {x : Except δ α} {f : δ → ε} {a : α}
    (h : x.mapError f = .ok a) : x = .ok a := by
  cases x with
  | error e => cases h
  | ok b => exact congrArg Except.ok (Except.ok.inj h)

/-- A call labelled with the stage that is under way. -/
theorem follows_atStage {limit : Option Nat} {done todo : List DemoEvent} {ev : DemoEvent}
    {stage : String} {α : Type} {x : Except String α}
    {f : α → Fallible (List DemoEvent) StageError Unit} (hfail : ev.mayFail = true)
    (hstage : stage = ev.stage)
    (h : ∀ a, x = .ok a → Script.Follows limit disconnected Blames (done ++ [ev]) todo (f a)) :
    Script.Follows limit disconnected Blames (done ++ [ev]) todo (atStage stage x >>= f) :=
  Script.Follows.step List.getLast?_concat (fun _ _ => ⟨hfail, hstage⟩) h

/-- **The run follows its script.** -/
theorem runPipelineInner_follows (limit : Option Nat) {c : Course} (hc : c.Fits w task) :
    Script.Follows limit disconnected Blames [] (c.events w task)
      (runPipelineInner w limit task) := by
  unfold runPipelineInner
  -- generating
  apply Script.Follows.send
  refine follows_atStage rfl rfl ?_
  intro apiKey hkey
  refine follows_atStage rfl rfl ?_
  intro response hresponse
  have hsource : w.source task = some (stripCodeFences response.text) := by
    simp [World.source, okOr_ok hkey, mapError_ok hresponse, Except.toOption]
  rw [hc.lua _ hsource]
  apply Script.Follows.send
  -- compiling
  apply Script.Follows.send
  refine follows_atStage rfl rfl ?_
  intro program hprogram
  -- executing
  apply Script.Follows.send
  refine follows_atStage rfl rfl ?_
  intro output hexecute
  have houtput : w.output task = some output := by
    simp [World.output, hsource, mapError_ok hprogram, mapError_ok hexecute, Except.toOption]
  rw [hc.calls _ houtput, hc.result _ houtput, List.map_map]
  apply Script.Follows.sendAll
  -- proving
  apply Script.Follows.send
  refine follows_atStage rfl rfl ?_
  intro tmp htmp
  refine follows_atStage rfl rfl ?_
  intro circuitDir hcircuit
  refine follows_atStage rfl rfl ?_
  intro artifacts hbuild
  have hartifacts : w.artifacts task = some artifacts := by
    simp [World.artifacts, hsource, mapError_ok hprogram, houtput, mapError_ok htmp, hcircuit,
      hbuild, Except.toOption]
  rw [hc.hashes _ hartifacts]
  refine follows_atStage rfl rfl ?_
  intro noir hnoir
  refine follows_atStage rfl rfl ?_
  intro inputs hinputs
  apply Script.Follows.send
  -- verifying on chain
  apply Script.Follows.send
  refine follows_atStage rfl rfl ?_
  intro _ _
  refine follows_atStage rfl rfl ?_
  intro verdict hverify
  have hverdict : w.verdict task = some verdict := by
    simp [World.verdict, hartifacts, okOr_ok hnoir, hinputs, mapError_ok hverify,
      Except.toOption]
  rw [hc.verdict _ hverdict]
  apply Script.Follows.send
  exact Script.Follows.nothing

end Courses

/-! ## The protocol -/

/-- The events that end a run. -/
def DemoEvent.isFinal : DemoEvent → Bool
  | .error _ _ => true
  | .verifiedOnChain _ _ _ => true
  | _ => false

section Protocol

variable {C : ProvenoCrates}

/-- **What a client sees of a run**, if it accepts `limit` events. -/
structure Protocol (w : World C) (task : String) (limit : Option Nat) (events : List DemoEvent) :
    Prop where
  /-- The events come in the order of the protocol, up to an error at the end. -/
  order : ∃ c : Course, c.Fits w task ∧ (events <+: c.events w task ∨
    ∃ sent message stage, sent <+: c.events w task ∧ events = sent ++ [.error message stage])
  /-- Nothing follows an error or a verdict. -/
  final : ∀ before ev after, events = before ++ ev :: after → ev.isFinal = true → after = []
  /-- An error comes directly after an event that is under way, and names its stage. -/
  errorAt : ∀ before message stage after, events = before ++ .error message stage :: after →
    ∃ ev, before.getLast? = some ev ∧ ev.mayFail = true ∧ stage = ev.stage ∧ stage ≠ "send"
  /-- A client that stays sees exactly one error or verdict, at the end. -/
  ends : limit = none → ∃ before ev, events = before ++ [ev] ∧ ev.isFinal = true ∧
    ∀ e ∈ before, e.isFinal = false

/-- Where only the last element is final, nothing follows a final one. -/
theorem nothing_after_final {init before after : List DemoEvent} {last ev : DemoEvent}
    (hinit : ∀ e ∈ init, e.isFinal = false)
    (hpart : before ++ ev :: after <+: init ++ [last]) (hev : ev.isFinal = true) :
    after = [] := by
  rcases hpart with ⟨rest, hrest⟩
  rcases List.eq_nil_or_concat (after ++ rest) with hnil | ⟨middle, z, hmiddle⟩
  · exact (List.append_eq_nil_iff.mp hnil).1
  · -- otherwise the final element is not the last one
    have hsplit : (before ++ ev :: middle) ++ [z] = init ++ [last] := by
      calc (before ++ ev :: middle) ++ [z] = before ++ ev :: (middle ++ [z]) := by simp
        _ = before ++ ev :: (after ++ rest) := by rw [hmiddle, List.concat_eq_append]
        _ = init ++ [last] := by rw [← hrest]; simp
    have hmem : ev ∈ init := by
      rw [← (List.append_inj' hsplit rfl).1]
      simp
    rw [hinit ev hmem] at hev
    cases hev

/-- The protocol ends with the verdict, its only final event. -/
theorem course_events_final (w : World C) (task : String) (c : Course) :
    ∃ init verdict, c.events w task = init ++ [verdict] ∧ verdict.isFinal = true ∧
      ∀ e ∈ init, e.isFinal = false := by
  refine ⟨.generatingLua task :: .luaReady c.lua :: .compiling :: .executing ::
    (c.calls.map toolCallEvent ++ [.proving, .complete c.result c.hashes,
      .verifyingOnChain w.chainConfig.chainId.toNat w.chainConfig.verifierAddr
        w.chainConfig.explorerBase]),
    .verifiedOnChain (acceptedAndReason c.verdict).1 (acceptedAndReason c.verdict).2 none, ?_, rfl,
    ?_⟩
  · simp [Course.events]
  · intro e he
    simp only [List.mem_cons, List.mem_append, List.mem_map, List.not_mem_nil, or_false] at he
    rcases he with rfl | rfl | rfl | rfl | ⟨record, -, rfl⟩ | rfl | rfl | rfl <;> rfl

theorem error_not_mem_course (w : World C) (task : String) (c : Course) (message stage : String) :
    .error message stage ∉ c.events w task := by
  simp [Course.events, toolCallEvent]

theorem mayFail_not_final {ev : DemoEvent} (h : ev.mayFail = true) : ev.isFinal = false := by
  cases ev <;> first | rfl | cases h

theorem stage_ne_send (ev : DemoEvent) : ev.stage ≠ "send" := by
  cases ev <;> simp [DemoEvent.stage]

section Cases

variable {w : World C} {task : String} {limit : Option Nat} {c : Course} {events : List DemoEvent}

/-- A part of the protocol, without an error. -/
theorem Protocol.of_part (hc : c.Fits w task) (hpart : events <+: c.events w task)
    (hall : limit = none → events = c.events w task) : Protocol w task limit events := by
  rcases course_events_final w task c with ⟨init, verdict, hcourse, hverdict, hinit⟩
  refine ⟨⟨c, hc, Or.inl hpart⟩, ?_, ?_, ?_⟩
  · intro before ev after h hev
    have hpart' : before ++ ev :: after <+: init ++ [verdict] := by
      rw [← h, ← hcourse]
      exact hpart
    exact nothing_after_final hinit hpart' hev
  · intro before message stage after h
    have hmem : .error message stage ∈ events := by
      rw [h]
      simp
    exact absurd (hpart.subset hmem) (error_not_mem_course w task c message stage)
  · intro hstays
    exact ⟨init, verdict, (hall hstays).trans hcourse, hverdict, hinit⟩

/-- Before an event that may fail no event of the protocol is final. -/
theorem not_final_of_mayFail {sent : List DemoEvent} {ev : DemoEvent}
    (hsent : sent <+: c.events w task) (hlast : sent.getLast? = some ev)
    (hfail : ev.mayFail = true) : ∀ x ∈ sent, x.isFinal = false := by
  rcases course_events_final w task c with ⟨init, verdict, hcourse, -, hinit⟩
  intro x hx
  by_contra hfinal
  rw [Bool.not_eq_false] at hfinal
  rcases List.append_of_mem hx with ⟨before, after, hsplit⟩
  have hsent' : before ++ x :: after <+: init ++ [verdict] := by
    rw [← hsplit, ← hcourse]
    exact hsent
  have hnil : after = [] := nothing_after_final hinit hsent' hfinal
  have hsame : x = ev := by
    rw [hsplit, hnil, List.getLast?_concat] at hlast
    exact Option.some.inj hlast
  rw [hsame, mayFail_not_final hfail] at hfinal
  cases hfinal

/-- A part of the protocol, then the error. -/
theorem Protocol.of_error {sent : List DemoEvent} {ev : DemoEvent} {e : StageError}
    (hc : c.Fits w task) (hsent : sent <+: c.events w task) (hlast : sent.getLast? = some ev)
    (hblames : Blames ev e) (hevents : events = sent ++ [.error e.message e.atStage]) :
    Protocol w task limit events := by
  have hopen : ∀ x ∈ sent, x.isFinal = false := not_final_of_mayFail hsent hlast hblames.1
  have hnothing : ∀ before x after, events = before ++ x :: after → x.isFinal = true →
      after = [] := by
    intro before x after h hx
    have hwhole : before ++ x :: after <+: sent ++ [.error e.message e.atStage] := by
      rw [← h, hevents]
    exact nothing_after_final hopen hwhole hx
  refine ⟨⟨c, hc, Or.inr ⟨sent, e.message, e.atStage, hsent, hevents⟩⟩, hnothing, ?_, ?_⟩
  · intro before message stage after h
    rw [hnothing before _ after h rfl, hevents] at h
    rcases List.append_inj' h rfl with ⟨rfl, herror⟩
    have hsame : stage = e.atStage := by
      injection (List.cons.inj herror).1 with _ hstages
      exact hstages.symm
    have hstage : stage = ev.stage := hsame.trans hblames.2
    exact ⟨ev, hlast, hblames.1, hstage, by rw [hstage]; exact stage_ne_send ev⟩
  · intro _
    exact ⟨sent, .error e.message e.atStage, hevents, rfl, hopen⟩

end Cases

/-- **The event protocol of a demo run**: for every task, every outcome of every call, and every
moment at which the client goes away. -/
theorem demo_event_protocol (w : World C) (task : String) (limit : Option Nat) :
    Protocol w task limit (runPipeline w limit task) := by
  rcases exists_fits w task with ⟨c, hc⟩
  rcases (runPipelineInner_follows w task limit hc).reported StageError.event with
    ⟨hpart, hall⟩ | ⟨sent, ev, e, hsent, hlast, hblames, hevents⟩
  · exact .of_part hc hpart hall
  · exact .of_error hc hsent hlast hblames hevents

end Protocol

end ProvenoOracle.Demo
