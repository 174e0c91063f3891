import ProvenoOracle.Demo.Runner
import ProvenoOracle.Effect.Runs

/-! # The demo page

`static/app.js`: one page shows the events of a run as they arrive. Submitting a task resets the
page and opens a stream; every event of every open stream goes to the same `handleEvent`, which
changes the one page. The run button is enabled again when a run is complete, before its proof is
verified on chain, and the Enter key does not look at the button.

What the page shows carries a tag that says which run has set it. The tags are never looked at
(`map_receive`); with them it can be said that the page shows the newest run only
(`no_stale_run_iff`).
-/

set_option autoImplicit false

namespace ProvenoOracle.Demo

open Effect

/-! ## What the page shows -/

/-- `STEP_IDS` -/
inductive StepId where
  | generating
  | compiling
  | executing
  | proving
  | onChain
  | complete
  deriving DecidableEq

/-- The class of a step row. -/
inductive StepState where
  | active
  | done
  | failed
  deriving DecidableEq

/-- `HASH_FIELDS` -/
inductive HashField where
  | program
  | input
  | toolResponses
  | output
  | attestation
  | policy
  deriving DecidableEq

/-- `hashes[field]` -/
def ProofHashes.field (h : ProofHashes) : HashField → String
  | .program => h.programHash
  | .input => h.inputHash
  | .toolResponses => h.toolResponsesHash
  | .output => h.outputHash
  | .attestation => h.attestationHash
  | .policy => h.policyHash

/-- The class of the result banner. -/
inductive BannerKind where
  | success
  | failure
  deriving DecidableEq

/-- The result banner, with the lines appended to it. -/
structure Banner (τ : Type) where
  text : String
  kind : BannerKind
  setBy : τ
  notes : List (String × τ)

/-- The verifier's address: shortened, in full, and the link to it. -/
structure VerifierCell where
  text : String
  title : String
  href : Option String

/-- The class of the on-chain status. -/
inductive StatusKind where
  | ok
  | bad
  deriving DecidableEq

/-- The page. A value that an event has set is kept with the tag of the run it came from. -/
@[ext]
structure Page (τ : Type) where
  luaSource : Option String
  toolCalls : List (String × String × String)
  steps : StepId → Option (StepState × τ)
  hashes : HashField → Option (String × τ)
  banner : Option (Banner τ)
  attackSimulator : Bool
  panelShown : Bool
  chain : Option (String × τ)
  verifier : Option (VerifierCell × τ)
  status : Option ((String × Option StatusKind) × τ)
  runEnabled : Bool

/-- The page as it is loaded. -/
def Page.initial (τ : Type) : Page τ where
  luaSource := none
  toolCalls := []
  steps _ := none
  hashes _ := none
  banner := none
  attackSimulator := false
  panelShown := false
  chain := none
  verifier := none
  status := none
  runEnabled := true

/-! ## Texts -/

/-- `x || fallback`, on a string that may be missing. -/
def orText (x : Option String) (fallback : String) : String :=
  match x with
  | some s => if s.isEmpty then fallback else s
  | none => fallback

/-- `chainName`, on a number. -/
def chainName (id : Nat) : String :=
  if id = 31337 then "local anvil"
  else if id = 11155111 then "Sepolia"
  else if id = 8453 then "Base"
  else if id = 84532 then "Base Sepolia"
  else if id = 10 then "Optimism"
  else if id = 11155420 then "OP Sepolia"
  else s!"chain ID {numberText id}"

/-- `typeof result === "string" ? result : JSON.stringify(result)` -/
def resultText : JsonValue → String
  | .string s => s
  | result => result.stringify

/-- `shortAddr` -/
def shortAddr (addr : String) : String :=
  let cs := addr.toList
  if cs.length < 12 then addr
  else String.ofList (cs.take 6 ++ '…' :: cs.drop (cs.length - 4))

/-- White space and line terminators, as `trim` sees them. -/
def isJsSpace (c : Char) : Bool :=
  c ∈ ['\t', '\n', '\x0b', '\x0c', '\r', ' ', '\u00a0', '\u1680', '\u2028', '\u2029', '\u202f',
    '\u205f', '\u3000', '\ufeff'] || ('\u2000' ≤ c && c ≤ '\u200a')

/-! ## Changing the page -/

section Handlers

variable {τ : Type}

/-- `setStep`, with a state. -/
def Page.setStep (page : Page τ) (tag : τ) (id : StepId) (state : StepState) : Page τ :=
  { page with steps := Function.update page.steps id (some (state, tag)) }

/-- `showResultBanner` -/
def Page.showResultBanner (page : Page τ) (tag : τ) (text : String) (kind : BannerKind) : Page τ :=
  { page with banner := some ⟨text, kind, tag, []⟩ }

/-- `showHashes`: an empty value leaves a blank row. -/
def Page.showHashes (page : Page τ) (tag : τ) (h : ProofHashes) : Page τ :=
  { page with hashes := fun f => if (h.field f).isEmpty then none else some (h.field f, tag) }

/-- `resetUI` -/
def Page.resetUI (page : Page τ) : Page τ :=
  { Page.initial τ with runEnabled := page.runEnabled }

/-- `enableRunButton` -/
def Page.enableRunButton (page : Page τ) : Page τ := { page with runEnabled := true }

/-- `handleEvent`, for an event of the run `tag`. -/
def Page.handleEvent (page : Page τ) (tag : τ) : DemoEvent → Page τ
  | .generatingLua _ => page.setStep tag .generating .active
  | .luaReady lua => { page.setStep tag .generating .done with luaSource := some lua }
  | .compiling => page.setStep tag .compiling .active
  | .executing => (page.setStep tag .compiling .done).setStep tag .executing .active
  | .toolCall name args response =>
      { page with toolCalls := page.toolCalls ++ [(name, args, response)] }
  | .proving => (page.setStep tag .executing .done).setStep tag .proving .active
  | .complete result hashes =>
      let page := (page.setStep tag .proving .done).setStep tag .complete .done
      let page := page.showHashes tag hashes
      let page := page.showResultBanner tag s!"Result: {resultText result}" .success
      { page with attackSimulator := true }.enableRunButton
  | .verifyingOnChain chainId verifierAddr explorerBase =>
      { page.setStep tag .onChain .active with
        panelShown := true
        chain := some (chainName chainId, tag)
        verifier := some (⟨shortAddr verifierAddr, verifierAddr,
          (explorerBase.filter (!·.isEmpty)).map fun base => s!"{base}/address/{verifierAddr}"⟩,
          tag)
        status := some (("submitting…", none), tag) }
  | .verifiedOnChain accepted reason _ =>
      if accepted then
        { page.setStep tag .onChain .done with
          status := some (("✓ accepted by HonkVerifier", some .ok), tag)
          -- the banner gets a line if it is shown
          banner := page.banner.map fun b =>
            { b with notes := b.notes ++ [("verified on chain", tag)] } }
      else
        let reason := orText reason "unknown"
        { page.setStep tag .onChain .failed with
          status := some ((s!"✗ rejected: {reason}", some .bad), tag)
          }.showResultBanner tag s!"Rejected on chain: {reason}" .failure
  | .error message atStage =>
      let text := orText (some message) "Unknown error"
      let stage := if atStage.isEmpty then "" else s!" ({atStage})"
      let page := page.showResultBanner tag s!"Error{stage}: {text}" .failure
      -- the steps that are still active have failed
      { page with
        steps := fun id =>
          match page.steps id with
          | some (.active, _) => some (.failed, tag)
          | s => s }.enableRunButton

/-- What a call of `runPipeline` gives the page: the events of its stream, or the failure to open
one. -/
inductive StreamItem where
  | event (e : DemoEvent)
  | networkError (message : String)
  | serverError (status : Nat)

/-- `runPipeline`, on one item of the run `tag`. -/
def Page.receive (page : Page τ) (tag : τ) : StreamItem → Page τ
  | .event e => page.handleEvent tag e
  | .networkError message =>
      (page.showResultBanner tag s!"Network error: {message}" .failure).enableRunButton
  | .serverError status =>
      (page.showResultBanner tag s!"Server error: HTTP {status}" .failure).enableRunButton

/-- `onSubmit`, with the text in the task box; nothing happens when it is blank. -/
def Page.onSubmit (page : Page τ) (value : String) : Option (Page τ) :=
  if value.toList.all isJsSpace then none
  else some { page.resetUI with runEnabled := false }

end Handlers

/-! ## Tags are not looked at -/

section Tags

variable {τ υ : Type} (f : τ → υ)

/-- A value with another tag. -/
def retag {α : Type} (x : α × τ) : α × υ := (x.1, f x.2)

def Banner.map (b : Banner τ) : Banner υ := ⟨b.text, b.kind, f b.setBy, b.notes.map (retag f)⟩

/-- The page with other tags. -/
def Page.map (page : Page τ) : Page υ where
  luaSource := page.luaSource
  toolCalls := page.toolCalls
  steps step := (page.steps step).map (retag f)
  hashes field := (page.hashes field).map (retag f)
  banner := page.banner.map (Banner.map f)
  attackSimulator := page.attackSimulator
  panelShown := page.panelShown
  chain := page.chain.map (retag f)
  verifier := page.verifier.map (retag f)
  status := page.status.map (retag f)
  runEnabled := page.runEnabled

theorem map_setStep (page : Page τ) (tag : τ) (step : StepId) (state : StepState) :
    (page.setStep tag step state).map f = (page.map f).setStep (f tag) step state := by
  have hsteps : ((page.setStep tag step state).map f).steps
      = ((page.map f).setStep (f tag) step state).steps := by
    funext step'
    by_cases h : step' = step
    · subst h
      simp [Page.map, Page.setStep, retag]
    · simp [Page.map, Page.setStep, Function.update_of_ne h]
  exact Page.ext rfl rfl hsteps rfl rfl rfl rfl rfl rfl rfl rfl

theorem map_showHashes (page : Page τ) (tag : τ) (h : ProofHashes) :
    (page.showHashes tag h).map f = (page.map f).showHashes (f tag) h := by
  have hhashes : ((page.showHashes tag h).map f).hashes
      = ((page.map f).showHashes (f tag) h).hashes := by
    funext field
    show (if (h.field field).isEmpty then none else some (h.field field, tag)).map (retag f)
      = if (h.field field).isEmpty then none else some (h.field field, f tag)
    split
    · rfl
    · rfl
  exact Page.ext rfl rfl rfl hhashes rfl rfl rfl rfl rfl rfl rfl

theorem map_handleEvent (page : Page τ) (tag : τ) (e : DemoEvent) :
    (page.handleEvent tag e).map f = (page.map f).handleEvent (f tag) e := by
  cases e with
  | generatingLua prompt => exact map_setStep f page tag _ _
  | luaReady lua =>
      exact congrArg (fun p : Page υ => { p with luaSource := some lua })
        (map_setStep f page tag .generating .done)
  | compiling => exact map_setStep f page tag _ _
  | executing =>
      unfold Page.handleEvent
      rw [map_setStep, map_setStep]
  | toolCall name args response => rfl
  | proving =>
      unfold Page.handleEvent
      rw [map_setStep, map_setStep]
  | complete result hashes =>
      have hshown : (((page.setStep tag .proving .done).setStep tag .complete .done).showHashes tag
            hashes).map f
          = (((page.map f).setStep (f tag) .proving .done).setStep (f tag) .complete
            .done).showHashes (f tag) hashes := by
        rw [map_showHashes, map_setStep, map_setStep]
      exact congrArg (fun p : Page υ =>
        { p.showResultBanner (f tag) s!"Result: {resultText result}" .success with
          attackSimulator := true, runEnabled := true }) hshown
  | verifyingOnChain chainId verifierAddr explorerBase =>
      have hsteps := congrArg Page.steps (map_setStep f page tag .onChain .active)
      exact Page.ext rfl rfl hsteps rfl rfl rfl rfl rfl rfl rfl rfl
  | verifiedOnChain accepted reason txHash =>
      cases accepted with
      | true =>
          have hsteps := congrArg Page.steps (map_setStep f page tag .onChain .done)
          refine Page.ext rfl rfl hsteps rfl ?_ rfl rfl rfl rfl rfl rfl
          show (page.banner.map fun b => { b with notes := b.notes ++ [("verified on chain", tag)]
            }).map (Banner.map f) = (page.banner.map (Banner.map f)).map fun b =>
              { b with notes := b.notes ++ [("verified on chain", f tag)] }
          cases page.banner with
          | none => rfl
          | some b => simp [Banner.map, retag]
      | false =>
          have hsteps := congrArg Page.steps (map_setStep f page tag .onChain .failed)
          exact Page.ext rfl rfl hsteps rfl rfl rfl rfl rfl rfl rfl rfl
  | error message atStage =>
      refine Page.ext rfl rfl ?_ rfl rfl rfl rfl rfl rfl rfl rfl
      funext step
      show (match page.steps step with
          | some (.active, _) => some (StepState.failed, tag)
          | s => s).map (retag f)
        = match (page.steps step).map (retag f) with
          | some (.active, _) => some (.failed, f tag)
          | s => s
      rcases page.steps step with - | ⟨- | - | -, tag'⟩
      · rfl
      · rfl
      · rfl
      · rfl

/-- **The page does not depend on the tags**: retagging it before or after an item is the same. -/
theorem map_receive (page : Page τ) (tag : τ) (x : StreamItem) :
    (page.receive tag x).map f = (page.map f).receive (f tag) x := by
  cases x with
  | event e => exact map_handleEvent f page tag e
  | networkError message => rfl
  | serverError status => rfl

end Tags

/-! ## The browser -/

/-- The page, and the number of runs that have been started from it. -/
structure Browser where
  page : Page Nat
  runs : Nat

/-- What happens to the page: a click on the run button, Enter in the task box, or an item of one
of the runs. -/
inductive Input where
  | click (value : String)
  | enter (value : String)
  | item (run : Nat) (x : StreamItem)

/-- A submitted task is a new run. -/
def Browser.submit (b : Browser) (value : String) : Browser :=
  match b.page.onSubmit value with
  | none => b
  | some page => ⟨page, b.runs + 1⟩

/-- One input. The button works when it is enabled, Enter always, and only runs that have been
started deliver. -/
def Browser.step (b : Browser) : Input → Browser
  | .click value => if b.page.runEnabled then b.submit value else b
  | .enter value => b.submit value
  | .item run x =>
      if 1 ≤ run ∧ run ≤ b.runs then { b with page := b.page.receive run x } else b

def Browser.start : Browser := ⟨Page.initial Nat, 0⟩

/-! ## Who has set it -/

/-- Every step state, hash, banner text and on-chain text of the page comes from a tag in `P`. -/
structure Page.AllSetBy {τ : Type} (P : τ → Prop) (page : Page τ) : Prop where
  steps : ∀ id state tag, page.steps id = some (state, tag) → P tag
  hashes : ∀ f value tag, page.hashes f = some (value, tag) → P tag
  banner : ∀ b, page.banner = some b → P b.setBy
  notes : ∀ b, page.banner = some b → ∀ n ∈ b.notes, P n.2
  chain : ∀ text tag, page.chain = some (text, tag) → P tag
  verifier : ∀ cell tag, page.verifier = some (cell, tag) → P tag
  status : ∀ text tag, page.status = some (text, tag) → P tag

/-- **No stale run leaks into the page**: all of this was set by the newest run. -/
def Browser.ShowsNewest (b : Browser) : Prop := b.page.AllSetBy (· = b.runs)

/-- A tool call, which only appends a row to the list of tool calls. -/
def StreamItem.IsToolCall : StreamItem → Prop
  | .event (.toolCall _ _ _) => True
  | _ => False

/-- The input is not a late item: an item belongs to the newest run, unless it is a tool call or
its run does not exist. -/
def Input.Current (i : Input) (b : Browser) : Prop :=
  match i with
  | .item run x => 1 ≤ run → run ≤ b.runs → run = b.runs ∨ x.IsToolCall
  | _ => True

section Handlers

variable {τ : Type} {P : τ → Prop} {page : Page τ} {tag : τ}

/-- A value that was set with a tag in `P` has a tag in `P`. -/
theorem tag_of_set {α : Type} {x y : α} {tag' : τ} (htag : P tag)
    (h : some (x, tag) = some (y, tag')) : P tag' := by
  have hsame : tag = tag' := (Prod.mk.inj (Option.some.inj h)).2
  rw [← hsame]
  exact htag

theorem allSetBy_initial : (Page.initial τ).AllSetBy P := by
  constructor <;> simp [Page.initial]

theorem allSetBy_setStep (h : page.AllSetBy P) (htag : P tag) (id : StepId) (state : StepState) :
    (page.setStep tag id state).AllSetBy P := by
  refine { h with steps := ?_ }
  intro id' state' tag' hstep
  by_cases hid : id' = id
  · subst hid
    have hset : some (state, tag) = some (state', tag') := by
      rw [← hstep]
      exact (Function.update_self id' (some (state, tag)) page.steps).symm
    exact tag_of_set htag hset
  · have hold : page.steps id' = some (state', tag') := by
      rw [← hstep]
      exact (Function.update_of_ne hid (some (state, tag)) page.steps).symm
    exact h.steps id' state' tag' hold

theorem allSetBy_showResultBanner (h : page.AllSetBy P) (htag : P tag) (text : String)
    (kind : BannerKind) : (page.showResultBanner tag text kind).AllSetBy P := by
  refine { h with banner := ?_, notes := ?_ }
  · intro b hb
    cases hb
    exact htag
  · intro b hb
    cases hb
    simp

theorem allSetBy_showHashes (h : page.AllSetBy P) (htag : P tag) (hashes : ProofHashes) :
    (page.showHashes tag hashes).AllSetBy P := by
  refine { h with hashes := ?_ }
  intro f value tag' hf
  unfold Page.showHashes at hf
  dsimp only at hf
  split at hf
  · cases hf
  · exact tag_of_set htag hf

/-- An event of a run in `P` keeps the page in `P`. -/
theorem allSetBy_handleEvent (h : page.AllSetBy P) (htag : P tag) (e : DemoEvent) :
    (page.handleEvent tag e).AllSetBy P := by
  cases e with
  | generatingLua prompt => exact allSetBy_setStep h htag _ _
  | luaReady lua => exact { allSetBy_setStep h htag .generating .done with }
  | compiling => exact allSetBy_setStep h htag _ _
  | executing => exact allSetBy_setStep (allSetBy_setStep h htag _ _) htag _ _
  | toolCall name args response => exact { h with }
  | proving => exact allSetBy_setStep (allSetBy_setStep h htag _ _) htag _ _
  | complete result hashes =>
      have hsteps := allSetBy_setStep (allSetBy_setStep h htag .proving .done) htag .complete .done
      have hhashes := allSetBy_showHashes hsteps htag hashes
      exact { allSetBy_showResultBanner hhashes htag s!"Result: {resultText result}" .success with }
  | verifyingOnChain chainId verifierAddr explorerBase =>
      refine { allSetBy_setStep h htag .onChain .active with
        chain := ?_, verifier := ?_, status := ?_ }
      · intro text tag' hchain
        exact tag_of_set htag hchain
      · intro cell tag' hverifier
        exact tag_of_set htag hverifier
      · intro text tag' hstatus
        exact tag_of_set htag hstatus
  | verifiedOnChain accepted reason txHash =>
      cases accepted with
      | true =>
          refine { allSetBy_setStep h htag .onChain .done with
            banner := ?_, notes := ?_, status := ?_ }
          · intro b hb
            rcases Option.map_eq_some_iff.mp hb with ⟨b₀, hb₀, rfl⟩
            exact h.banner b₀ hb₀
          · intro b hb n hn
            rcases Option.map_eq_some_iff.mp hb with ⟨b₀, hb₀, rfl⟩
            rcases List.mem_append.mp hn with hn | hn
            · exact h.notes b₀ hb₀ n hn
            · rw [List.mem_singleton.mp hn]
              exact htag
          · intro text tag' hstatus
            exact tag_of_set htag hstatus
      | false =>
          have hsteps := allSetBy_setStep h htag .onChain .failed
          refine { allSetBy_showResultBanner hsteps htag _ .failure with status := ?_ }
          intro text tag' hstatus
          exact tag_of_set htag hstatus
  | error message atStage =>
      refine { allSetBy_showResultBanner h htag _ .failure with steps := ?_ }
      intro id state tag' hstep
      change (match page.steps id with
        | some (.active, _) => some (.failed, tag)
        | s => s) = some (state, tag') at hstep
      split at hstep
      · exact tag_of_set htag hstep
      · exact h.steps id state tag' hstep

theorem allSetBy_receive (h : page.AllSetBy P) (htag : P tag) (x : StreamItem) :
    (page.receive tag x).AllSetBy P := by
  cases x with
  | event e => exact allSetBy_handleEvent h htag e
  | networkError message => exact { allSetBy_showResultBanner h htag _ .failure with }
  | serverError status => exact { allSetBy_showResultBanner h htag _ .failure with }

theorem setStep_self (page : Page τ) (tag : τ) (id : StepId) (state : StepState) :
    (page.setStep tag id state).steps id = some (state, tag) :=
  Function.update_self _ _ _

/-- Everything but a tool call sets a step or the banner, so its tag is on the page. -/
theorem tag_of_allSetBy_receive {x : StreamItem} (hx : ¬x.IsToolCall)
    (h : (page.receive tag x).AllSetBy P) : P tag := by
  cases x with
  | networkError message => exact h.banner _ rfl
  | serverError status => exact h.banner _ rfl
  | event e =>
      cases e with
      | generatingLua prompt => exact h.steps .generating _ _ (setStep_self ..)
      | luaReady lua => exact h.steps .generating _ _ (setStep_self page tag .generating .done)
      | compiling => exact h.steps .compiling _ _ (setStep_self ..)
      | executing => exact h.steps .executing _ _ (setStep_self _ tag _ .active)
      | toolCall name args response => exact absurd trivial hx
      | proving => exact h.steps .proving _ _ (setStep_self _ tag _ .active)
      | complete result hashes => exact h.banner _ rfl
      | verifyingOnChain chainId verifierAddr explorerBase => exact h.status _ _ rfl
      | verifiedOnChain accepted reason txHash =>
          cases accepted with
          | true => exact h.status _ _ rfl
          | false => exact h.status _ _ rfl
      | error message atStage => exact h.banner _ rfl

/-- A tool call sets nothing of this. -/
theorem allSetBy_receive_toolCall {x : StreamItem} (hx : x.IsToolCall) (h : page.AllSetBy P) :
    (page.receive tag x).AllSetBy P := by
  cases x with
  | networkError message => cases hx
  | serverError status => cases hx
  | event e =>
      cases e with
      | toolCall name args response => exact { h with }
      | _ => cases hx

end Handlers

/-- In particular the on-chain status is the verdict for the hashes next to it. -/
theorem Browser.ShowsNewest.verdict_for_hashes {b : Browser} (h : b.ShowsNewest)
    {text : String × Option StatusKind} {field : HashField} {value : String} {run run' : Nat}
    (hstatus : b.page.status = some (text, run))
    (hhash : b.page.hashes field = some (value, run')) : run = run' := by
  have hnewest : run = b.runs := h.status text run hstatus
  have hnewest' : run' = b.runs := h.hashes field value run' hhash
  rw [hnewest, hnewest']

/-! ## Any interleaving -/

theorem showsNewest_start : Browser.start.ShowsNewest := allSetBy_initial

/-- A submitted task either is blank, or leaves nothing of the earlier runs on the page. -/
theorem showsNewest_submit {b : Browser} (h : b.ShowsNewest) (value : String) :
    (b.submit value).ShowsNewest := by
  unfold Browser.submit Page.onSubmit
  by_cases hblank : value.toList.all isJsSpace = true
  · rw [if_pos hblank]
    exact h
  · rw [if_neg hblank]
    exact { (allSetBy_initial : (Page.initial Nat).AllSetBy (· = b.runs + 1)) with }

/-- **One input keeps the newest run on the page exactly when it is not a late item.** -/
theorem showsNewest_step_iff {b : Browser} (h : b.ShowsNewest) (i : Input) :
    (b.step i).ShowsNewest ↔ i.Current b := by
  cases i with
  | click value =>
      have hkeeps : (b.step (.click value)).ShowsNewest := by
        unfold Browser.step
        dsimp only
        split
        · exact showsNewest_submit h value
        · exact h
      exact iff_of_true hkeeps trivial
  | enter value => exact iff_of_true (showsNewest_submit h value) trivial
  | item run x =>
      unfold Input.Current Browser.step
      dsimp only
      by_cases hstarted : 1 ≤ run ∧ run ≤ b.runs
      · rw [if_pos hstarted]
        constructor
        · intro hshows _ _
          by_cases hx : x.IsToolCall
          · exact Or.inr hx
          · have htag : run = b.runs := tag_of_allSetBy_receive (P := (· = b.runs)) hx hshows
            exact Or.inl htag
        · intro hcurrent
          rcases hcurrent hstarted.1 hstarted.2 with hnewest | hx
          · exact allSetBy_receive h hnewest x
          · exact allSetBy_receive_toolCall hx h
      · rw [if_neg hstarted]
        refine iff_of_true h ?_
        intro hfirst hlast
        exact absurd ⟨hfirst, hlast⟩ hstarted

/-- **When no stale run leaks into the page**, for every sequence of runs and every interleaving of
their streams: exactly when no item but a tool call arrives after a newer run has been started. -/
theorem no_stale_run_iff (inputs : List Input) :
    (∀ before after, inputs = before ++ after →
        (before.foldl Browser.step Browser.start).ShowsNewest) ↔
      ∀ before i after, inputs = before ++ i :: after →
        i.Current (before.foldl Browser.step Browser.start) := by
  have hstep : ∀ i ∈ inputs, ∀ b : Browser, b.ShowsNewest →
      ((b.step i).ShowsNewest ↔ i.Current b) := by
    intro i _ b hb
    exact showsNewest_step_iff hb i
  exact invariant_iff_safe hstep showsNewest_start

/-! ## A verdict that comes late -/

/-- The hashes of a run, for one that only its program hash tells from others. -/
def hashesOf (programHash : String) : ProofHashes :=
  ⟨programHash, "0x00", "0x00", "0x00", "0x00", "0x00"⟩

/-- The items of a run without tool calls, up to its result. -/
def upToComplete (run : Nat) (result : JsonValue) (programHash : String) : List Input :=
  [DemoEvent.generatingLua "", .luaReady "", .compiling, .executing, .proving,
    .complete result (hashesOf programHash)].map fun e => .item run (.event e)

/-- A second task is submitted with the button that the first run's result has enabled; both runs
are complete when the verdict on the first one's proof arrives. -/
def lateVerdict : List Input :=
  [.enter "what is 1 + 1"] ++ upToComplete 1 (.number 2) "0x11" ++ [.click "what is 2 + 2"] ++
    upToComplete 2 (.number 4) "0x22" ++
    [.item 1 (.event (.verifyingOnChain 31337 "0xe7f1725E7734CE288F8367e1Bb143E90bb3F0512" none)),
      .item 1 (.event (.verifiedOnChain true none none))]

/-- The page shows the first run's verdict next to the second run's hashes. -/
theorem late_verdict_shown :
    let b := lateVerdict.foldl Browser.step Browser.start
    b.runs = 2 ∧ b.page.hashes .program = some ("0x22", 2) ∧
      b.page.status = some (("✓ accepted by HonkVerifier", some .ok), 1) ∧ ¬b.ShowsNewest := by
  intro b
  have hruns : b.runs = 2 := by decide +kernel
  have hhash : b.page.hashes .program = some ("0x22", 2) := by decide +kernel
  have hstatus : b.page.status = some (("✓ accepted by HonkVerifier", some .ok), 1) := by
    decide +kernel
  refine ⟨hruns, hhash, hstatus, ?_⟩
  intro hshows
  exact absurd (hshows.verdict_for_hashes hstatus hhash) (by decide)

end ProvenoOracle.Demo
