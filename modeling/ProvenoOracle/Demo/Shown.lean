import ProvenoOracle.Demo.Page
import ProvenoOracle.Demo.Server

/-! # What an accepted run shows

The events of a run carry what the run has computed (`mem_events`): the hashes of its artifacts,
the chain of the server, and the verdict of that chain about the tuple that was submitted. So a
page that shows a run as accepted shows the hashes that the contract has accepted
(`shown_hashes_accepted`).
-/

set_option autoImplicit false

namespace ProvenoOracle.Demo

open Effect Codec

/-! ## What the events carry -/

section Events

variable {C : ProvenoCrates} {w : World C} {task : String} {limit : Option Nat}

/-- Every event but an error stands in the script of the run, whichever values are put in for what
the run has not computed. -/
theorem mem_events {c : Course} (hc : c.Fits w task) {e : DemoEvent}
    (he : e ∈ runPipeline w limit task) (herror : e.stage ≠ "error") :
    e ∈ c.events w task := by
  rcases (runPipelineInner_follows w task limit hc).reported StageError.event with
    ⟨hpart, -⟩ | ⟨sent, -, err, hsent, -, -, hevents⟩
  · exact hpart.subset he
  · have hsent' : e ∈ sent ++ [.error err.message err.atStage] := hevents ▸ he
    rcases List.mem_append.mp hsent' with h | h
    · exact hsent.subset h
    · rw [List.mem_singleton.mp h] at herror
      exact absurd rfl herror

theorem verifyingOnChain_mem {chainId : Nat} {verifierAddr : String}
    {explorerBase : Option String}
    (h : .verifyingOnChain chainId verifierAddr explorerBase ∈ runPipeline w limit task) :
    chainId = w.chainConfig.chainId.toNat ∧ verifierAddr = w.chainConfig.verifierAddr ∧
      explorerBase = w.chainConfig.explorerBase := by
  obtain ⟨c, hc⟩ := exists_fits w task
  simpa [Course.events, toolCallEvent] using mem_events hc h (by simp [DemoEvent.stage])

/-- The verdict that is sent is that of the chain. A run without one would send any verdict at
all. -/
theorem verifiedOnChain_mem {accepted : Bool} {reason txHash : Option String}
    (h : .verifiedOnChain accepted reason txHash ∈ runPipeline w limit task) :
    ∃ verdict, w.verdict task = some verdict ∧ accepted = (acceptedAndReason verdict).1 := by
  obtain ⟨c, hc⟩ := exists_fits w task
  have hsent : ∀ c : Course, c.Fits w task → accepted = (acceptedAndReason c.verdict).1 := by
    intro c hc
    have hmem := mem_events hc h (by simp [DemoEvent.stage])
    simp [Course.events, toolCallEvent] at hmem
    exact hmem.1
  cases hverdict : w.verdict task with
  | some verdict =>
      refine ⟨verdict, rfl, ?_⟩
      rw [hsent c hc, hc.verdict _ hverdict]
  | none =>
      have hother : ∀ verdict, accepted = (acceptedAndReason verdict).1 := by
        intro verdict
        refine hsent { c with verdict := verdict } ⟨hc.lua, hc.calls, hc.result, hc.hashes, ?_⟩
        intro verdict' h
        rw [hverdict] at h
        cases h
      have habsurd := (hother .accepted).symm.trans (hother (.rejected ""))
      cases habsurd

/-- **A verdict is the last event**, so all others have been sent before it. -/
theorem eq_events_of_verified {c : Course} (hc : c.Fits w task) {events : List DemoEvent}
    (hpart : events <+: runPipeline w limit task) {accepted : Bool} {reason txHash : Option String}
    (h : .verifiedOnChain accepted reason txHash ∈ events) : events = c.events w task := by
  obtain ⟨init, verdict, hcourse, -, hinit⟩ := course_events_final w task c
  have hend : ∀ sent, sent <+: c.events w task →
      .verifiedOnChain accepted reason txHash ∈ sent → sent = c.events w task := by
    intro sent hsent hmem
    rw [hcourse] at hsent ⊢
    rcases List.prefix_concat_iff.mp hsent with h | h
    · exact h
    · have hfinal := hinit _ (h.subset hmem)
      cases hfinal
  rcases (runPipelineInner_follows w task limit hc).reported StageError.event with
    ⟨hwhole, -⟩ | ⟨sent, ev, err, hsent, hlast, hblames, hevents⟩
  · exact hend events (hpart.trans hwhole) h
  · -- an error does not come after a verdict
    have hpart' : events <+: sent ++ [err.event] := hevents ▸ hpart
    rcases List.prefix_concat_iff.mp hpart' with rfl | hpart
    · rcases List.mem_append.mp h with h | h
      · have hopen := not_final_of_mayFail hsent hlast hblames.1 _ h
        cases hopen
      · have habsurd := List.mem_singleton.mp h
        cases habsurd
    · exact hend events (hpart.trans hsent) h

/-- What it takes for a run to be accepted: the contract has returned `true` for the proof of the
artifacts and the tuple that is built from them. -/
theorem verdict_accepted (h : w.verdict task = some .accepted) :
    ∃ artifacts noir inputs, w.artifacts task = some artifacts ∧
      artifacts.noirProof = some noir ∧
      publicInputs artifacts.publicInputs noir.publicInputsHex = .ok inputs ∧
      w.chain.verify noir.proofBytes (solInputs inputs) = .ok true := by
  simp only [World.verdict, Option.bind_eq_bind, Option.bind_eq_some_iff] at h
  obtain ⟨artifacts, hartifacts, noir, hnoir, inputs, hinputs, hverify⟩ := h
  cases hpublic : publicInputs artifacts.publicInputs noir.publicInputsHex with
  | error e => simp [hpublic, Except.toOption] at hinputs
  | ok inputs' =>
      obtain rfl : inputs' = inputs := by simpa [hpublic, Except.toOption] using hinputs
      refine ⟨artifacts, noir, inputs', hartifacts, hnoir, hpublic, ?_⟩
      unfold verifyOnChain at hverify
      cases hurl : w.chain.parseUrl w.chainConfig.rpcUrl with
      | error e => simp [hurl, Except.toOption] at hverify
      | ok _ =>
          cases hcall : w.chain.verify noir.proofBytes (solInputs inputs') with
          | error e => simp [hurl, hcall, Except.toOption] at hverify
          | ok accepted => cases accepted <;> simp [hurl, hcall, Except.toOption] at hverify ⊢

end Events

/-! ## What the page shows -/

/-- The hash of the tuple that a row of the page is about. -/
def PublicInputs.hash (inputs : PublicInputs) : HashField → ByteArr 32
  | .program => inputs.programHash
  | .input => inputs.inputHash
  | .toolResponses => inputs.toolResponsesHash
  | .output => inputs.outputHash
  | .attestation => inputs.attestationHash
  | .policy => inputs.policyHash

/-- The status of an accepted run. -/
def acceptedStatus : String × Option StatusKind := ("✓ accepted by HonkVerifier", some .ok)

theorem hex32_isEmpty (b : ByteArr 32) : (hex32 b).isEmpty = false := by
  obtain ⟨bytes, hbytes⟩ := b
  cases bytes with
  | nil => cases hbytes
  | cons x bytes =>
      rw [Bool.eq_false_iff]
      intro hempty
      have hnil : (hex32 ⟨x :: bytes, hbytes⟩).toList = [] := by
        rw [String.isEmpty_iff.mp hempty]
        rfl
      simp [hex32, hexByte] at hnil

/-- The tuple has the hashes that the event shows. -/
theorem hash_of_publicInputs {pi : ProvenoOracle.PublicInputs} {words : Vector String 8}
    {inputs : PublicInputs} (h : publicInputs pi words = .ok inputs) (f : HashField) :
    (proofHashes pi).field f = hex32 (inputs.hash f) := by
  unfold publicInputs at h
  cases hsteps : parseU32Bytes32 words[0] with
  | error e => simp [hsteps, bind, Except.bind] at h
  | ok numSteps =>
      cases hvalue : parseI64Bytes32 words[2] with
      | error e => simp [hsteps, hvalue, bind, Except.bind] at h
      | ok returnValue =>
          simp only [hsteps, hvalue, bind, Except.bind, pure, Except.pure, Except.ok.injEq] at h
          subst h
          cases f <;> rfl

section Page

variable {τ : Type}

/-- The page after some events of one run. -/
def Page.after (page : Page τ) (tag : τ) (events : List DemoEvent) : Page τ :=
  events.foldl (fun page e => page.handleEvent tag e) page

theorem Page.after_append (page : Page τ) (tag : τ) (before events : List DemoEvent) :
    page.after tag (before ++ events) = (page.after tag before).after tag events :=
  List.foldl_append

/-- Only one event shows a run as accepted. -/
theorem accepted_of_handleEvent {page : Page τ} {tag : τ} {e : DemoEvent}
    (h : (page.handleEvent tag e).status = some (acceptedStatus, tag)) :
    page.status = some (acceptedStatus, tag) ∨ ∃ reason txHash, e = .verifiedOnChain true reason
      txHash := by
  cases e with
  | verifyingOnChain chainId verifierAddr explorerBase =>
      simp [Page.handleEvent, acceptedStatus] at h
  | verifiedOnChain accepted reason txHash =>
      cases accepted with
      | true => exact Or.inr ⟨reason, txHash, rfl⟩
      | false => simp [Page.handleEvent, Page.showResultBanner, acceptedStatus] at h
  | _ => exact Or.inl h

/-- By induction on the events. -/
theorem accepted_mem {tag : τ} {events : List DemoEvent} : ∀ {page : Page τ},
    page.status ≠ some (acceptedStatus, tag) →
    (page.after tag events).status = some (acceptedStatus, tag) →
    ∃ reason txHash, .verifiedOnChain true reason txHash ∈ events := by
  induction events with
  | nil => exact fun hpage h => absurd h hpage
  | cons e events ih =>
      intro page hpage h
      by_cases hnow : (page.handleEvent tag e).status = some (acceptedStatus, tag)
      · rcases accepted_of_handleEvent hnow with hbefore | ⟨reason, txHash, rfl⟩
        · exact absurd hbefore hpage
        · exact ⟨reason, txHash, List.mem_cons_self⟩
      · obtain ⟨reason, txHash, hmem⟩ := ih hnow h
        exact ⟨reason, txHash, List.mem_cons_of_mem e hmem⟩

/-- A verdict comes from a verdict. -/
theorem verified_mem_of_parsed {accepted : Bool} {reason txHash : Option String}
    {events : List DemoEvent}
    (h : .verifiedOnChain accepted reason txHash ∈ events.map DemoEvent.parsed) :
    .verifiedOnChain accepted reason txHash ∈ events := by
  obtain ⟨e, he, hparsed⟩ := List.mem_map.mp h
  cases e with
  | verifiedOnChain accepted' reason' txHash' =>
      rw [← hparsed]
      exact he
  | _ => cases hparsed

variable {C : ProvenoCrates} {w : World C} {task : String}

/-- The page after a whole run shows its hashes and its chain. -/
theorem after_course (page : Page τ) (tag : τ) (c : Course) :
    (page.after tag ((c.events w task).map DemoEvent.parsed)).hashes
      = (fun f => if (c.hashes.field f).isEmpty then none else some (c.hashes.field f, tag)) ∧
    (page.after tag ((c.events w task).map DemoEvent.parsed)).chain
      = some (chainName (roundDouble w.chainConfig.chainId.toNat), tag) ∧
    ∃ cell, (page.after tag ((c.events w task).map DemoEvent.parsed)).verifier = some (cell, tag) ∧
      cell.title = w.chainConfig.verifierAddr := by
  have hsplit : c.events w task
      = (.generatingLua task :: .luaReady c.lua :: .compiling :: .executing ::
          (c.calls.map toolCallEvent ++ [.proving])) ++
        [.complete c.result c.hashes, .verifyingOnChain w.chainConfig.chainId.toNat
          w.chainConfig.verifierAddr w.chainConfig.explorerBase,
        .verifiedOnChain (acceptedAndReason c.verdict).1 (acceptedAndReason c.verdict).2 none] := by
    simp [Course.events]
  rw [hsplit, List.map_append, Page.after_append]
  generalize page.after tag _ = page'
  cases c.verdict <;> exact ⟨rfl, rfl, _, rfl, rfl⟩

/-- **A page that shows a run as accepted** has handled a run whose proof the contract has
accepted, and shows the hashes and the chain of that call. -/
theorem after_accepted {page : Page τ} {tag : τ} {handled : List DemoEvent}
    (hpage : page.status ≠ some (acceptedStatus, tag))
    (hhandled : handled <+: (runPipeline w none task).map DemoEvent.parsed)
    (h : (page.after tag handled).status = some (acceptedStatus, tag)) :
    ∃ artifacts noir inputs, w.artifacts task = some artifacts ∧
      artifacts.noirProof = some noir ∧
      w.chain.verify noir.proofBytes (solInputs inputs) = .ok true ∧
      (∀ f, (page.after tag handled).hashes f = some (hex32 (inputs.hash f), tag)) ∧
      (page.after tag handled).chain
        = some (chainName (roundDouble w.chainConfig.chainId.toNat), tag) ∧
      ∃ cell, (page.after tag handled).verifier = some (cell, tag) ∧
        cell.title = w.chainConfig.verifierAddr := by
  obtain ⟨sent, hsent, rfl⟩ := List.prefix_map_iff.mp hhandled
  obtain ⟨reason, txHash, hshown⟩ := accepted_mem hpage h
  have hverified := verified_mem_of_parsed hshown
  obtain ⟨c, hc⟩ := exists_fits w task
  obtain rfl := eq_events_of_verified hc hsent hverified
  obtain ⟨verdict, hverdict, haccepted⟩ := verifiedOnChain_mem (hsent.subset hverified)
  obtain rfl : verdict = .accepted := by
    cases verdict with
    | accepted => rfl
    | rejected reason => cases haccepted
  obtain ⟨artifacts, noir, inputs, hartifacts, hnoir, hinputs, hcall⟩ := verdict_accepted hverdict
  obtain ⟨hhashes, hchain, hverifier⟩ := @after_course _ _ w task page tag c
  refine ⟨artifacts, noir, inputs, hartifacts, hnoir, hcall, ?_, hchain, hverifier⟩
  intro f
  rw [hhashes, hc.hashes _ hartifacts]
  dsimp only
  rw [hash_of_publicInputs hinputs, hex32_isEmpty]
  rfl

variable {chainConfig : ChainConfig} {maxRuns : Nat} {steps : List (ServerStep C)} {s : Server C}

/-- The runs of a server are checked on its chain. -/
theorem Reaches.onChain (h : Reaches chainConfig maxRuns steps s) {r : DemoRun C}
    (hr : r ∈ s.jobs) : r.world.chainConfig = chainConfig := by
  obtain ⟨i, hi⟩ := List.mem_iff_getElem?.mp hr
  obtain ⟨fresh, harrive, hway⟩ := Pool.job_run h.inPool hi
  obtain ⟨w, task, -, rfl⟩ := arrive_mem harrive
  rw [(run_link hway).1]
  rfl

/-- **What is shown as accepted was accepted**: in every interleaving of the server, and wherever
the bytes of its stream are cut, a page that has handled nothing else since it was reset and shows
its run as accepted shows the hashes of a tuple for which the contract has returned `true`, with the
proof of that run, and it shows the chain and the contract of the server, the chain id as a
double. -/
theorem shown_hashes_accepted (h : Reaches chainConfig maxRuns steps s) {r : DemoRun C}
    (hr : r ∈ s.jobs) {D : TextDecoder} {J : EventJson} (hD : D.Streams) {frames : List SseFrame}
    (hframes : frames.filterMap SseFrame.event? = r.link.delivered)
    (hjson : ∀ e, .event e ∈ frames → J.Carries e)
    {chunks : List Bytes} (hchunks : chunks.flatten <+: charBytes (streamText J frames))
    {page shown : Page τ} {tag : τ}
    (hshown : shown = page.resetUI.after tag (readAll D J chunks).handled)
    (haccepted : shown.status = some (acceptedStatus, tag)) :
    ∃ artifacts noir inputs, r.world.artifacts r.task = some artifacts ∧
      artifacts.noirProof = some noir ∧
      r.world.chain.verify noir.proofBytes (solInputs inputs) = .ok true ∧
      (∀ f, shown.hashes f = some (hex32 (inputs.hash f), tag)) ∧
      shown.chain = some (chainName (roundDouble chainConfig.chainId.toNat), tag) ∧
      ∃ cell, shown.verifier = some (cell, tag) ∧ cell.title = chainConfig.verifierAddr := by
  have hprefix := handled_prefix hD hjson hchunks
  rw [hframes] at hprefix
  have hinv : r.Inv := h.inv r hr
  have hhandled := hprefix.trans (hinv.delivered_prefix.map _)
  subst hshown
  rw [← h.onChain hr]
  exact after_accepted (by simp [Page.resetUI, Page.initial]) hhandled haccepted

/-! ## A run that is accepted -/

/-- A run of `return 1 + 2`. -/
def addWorld : World plainCrates :=
  { keylessWorld with
    apiKey := some "sk-test"
    generate := fun _ _ _ => .ok ⟨"return 1 + 2", ⟨12, 8⟩⟩ }

/-- Its hashes: that of the program and five zeros. -/
def addHashes : ProofHashes :=
  let zero := "0000000000000000000000000000000000000000000000000000000000000000"
  ⟨"0000000000000000000000000000000000000000000000000000000000000004", zero, zero, zero, zero,
    zero⟩

/-- Its events. -/
def addEvents : List DemoEvent :=
  [.generatingLua "add one and two", .luaReady "return 1 + 2", .compiling, .executing, .proving,
    .complete (.number 3) addHashes,
    .verifyingOnChain 31337 "0x0000000000000000000000000000000000000000" none,
    .verifiedOnChain true none none]

/-- A request, and a client that reads every event when it has been sent. -/
def addSteps : List (ServerStep plainCrates) :=
  .request addWorld "add one and two" ::
    addEvents.flatMap fun _ => [.move 0 .send, .move 0 .read]

/-- The run when the client has read its events. -/
def shownRun : DemoRun plainCrates :=
  ⟨addWorld, "add one and two", ⟨[], addEvents, [], addEvents, true, .working⟩⟩

theorem addWorld_events : runPipeline addWorld none "add one and two" = addEvents := by rfl

theorem add_reaches : Reaches stubChainConfig 1 addSteps ⟨0, [shownRun]⟩ := by
  have hspawn : requested stubChainConfig addWorld "add one and two"
      = ⟨addWorld, "add one and two", Link.start addEvents⟩ := by
    rw [← addWorld_events]
    rfl
  refine run_cons.mpr ⟨⟨0, [⟨addWorld, "add one and two", Link.start addEvents⟩]⟩, ?_, rfl⟩
  rw [← hspawn]
  rfl

/-- The bytes of its stream. -/
def addBytes : Bytes := charBytes (streamText (jsonOf addEvents) (addEvents.map .event))

theorem addEvents_carried : ∀ e, .event e ∈ addEvents.map SseFrame.event →
    (jsonOf addEvents).Carries e := by
  intro e he
  exact jsonOf_carries (by decide +kernel) (by simpa using he)

theorem shown_hashes_accepted_add :
    let chunks := [addBytes.take 100, addBytes.drop 100]
    let shown := (Page.initial Unit).resetUI.after ()
      (readAll streamDecoder (jsonOf addEvents) chunks).handled
    ∃ artifacts noir inputs, addWorld.artifacts "add one and two" = some artifacts ∧
      artifacts.noirProof = some noir ∧
      addWorld.chain.verify noir.proofBytes (solInputs inputs) = .ok true ∧
      (∀ f, shown.hashes f = some (hex32 (inputs.hash f), ())) ∧
      shown.chain = some (chainName (roundDouble stubChainConfig.chainId.toNat), ()) ∧
      ∃ cell, shown.verifier = some (cell, ()) ∧ cell.title = stubChainConfig.verifierAddr := by
  intro chunks shown
  have hchunks : chunks.flatten = addBytes := by simp [chunks]
  have hframes : (addEvents.map SseFrame.event).filterMap SseFrame.event? = addEvents := rfl
  have hhandled : (readAll streamDecoder (jsonOf addEvents) chunks).handled = addEvents :=
    (readAll_streamText (jsonOf addEvents) streamDecoder_streams addEvents_carried hchunks).1
  refine shown_hashes_accepted add_reaches (List.mem_singleton_self shownRun)
    streamDecoder_streams hframes addEvents_carried ?_ rfl ?_
  · exact hchunks ▸ List.prefix_rfl
  · show ((Page.initial Unit).resetUI.after ()
      (readAll streamDecoder (jsonOf addEvents) chunks).handled).status = _
    rw [hhandled]
    rfl

end Page

end ProvenoOracle.Demo
