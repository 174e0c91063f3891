import ProvenoOracle.Prove.Compile
import ProvenoOracle.Prove.ConcreteRun
import ProvenoOracle.Tools.KeyValue

/-! # The retry loop

`main.rs`: the orchestrator asks the language model for a program, compiles it and runs it. A
failure is shown to the model, which gets another try; a success is proven and reported.

One round of the loop is `attemptOnce`, the loop is `retryLoop`. The loop invariant is
`RetryLoop.History`: the conversation so far consists of the task and of one pair of messages for
each failed attempt, and each of these attempts really went that way. `retry_loop_invariant` reads
off what every call to the model gets and what a report says.
-/

set_option autoImplicit false

namespace ProvenoOracle

/-! ## The session -/

/-- `a += b` on `u64`. -/
def u64Add (t : Target) (a b : UInt64) : Run UInt64 :=
  if a.toNat + b.toNat < 2 ^ 64 then .ok (a + b)
  else if t.overflowChecks then .error .overflow
  else .ok (a + b)

/-- Adding the usage of a response to the total. -/
def addUsage (t : Target) (total usage : TokenUsage) : Run TokenUsage := do
  let inputTokens ← u64Add t total.inputTokens usage.inputTokens
  let outputTokens ← u64Add t total.outputTokens usage.outputTokens
  return ⟨inputTokens, outputTokens⟩

/-- What `main` has when it reaches the loop, and what its calls will meet: the answers of the
model and of the outside world for each attempt. -/
structure Session (C : ProvenoCrates) where
  target : Target
  cli : Cli
  task : String
  model : String
  maxRetries : Nat
  generateOnly : Bool
  prove : Bool
  /-- The policy loaded at the start. -/
  policy : Option C.Policy
  lua : LuaCompiler C
  /-- `client.generate`, at each attempt. -/
  generate : Nat → List Message → Except String LlmResponse
  /-- How a `LiveHost` answers at each attempt. -/
  host : Nat → LiveHost → C.Host
  env : Env C
  dir : OutputDir

/-- How `main` ends. -/
inductive Ending (C : ProvenoCrates) where
  | panicked
  | exited (message : String)
  /-- `--generate-only` -/
  | printed (source : String) (usage : TokenUsage)
  | reported (result : PipelineResult C.Output) (artifacts : Option ProveArtifacts)
  /-- The code after the loop. -/
  | fellThrough

/-- What a round of the loop leads to. -/
inductive Round (C : ProvenoCrates) where
  | ends (ending : Ending C)
  | continues (messages : List Message) (usage : TokenUsage)

section Loop

variable {C : ProvenoCrates} (w : Session C)

/-- The two messages that a failed attempt adds. -/
def retryMessages (raw : String) (err : PipelineError C.Value) : List Message :=
  [⟨"assistant", raw⟩, ⟨"user", formatErrorForRetry (stripCodeFences raw) err⟩]

/-- The failure exits of a round. -/
def retryOrGiveUp (attempt : Nat) (messages : List Message) (usage : TokenUsage) (raw : String)
    (err : PipelineError C.Value) : Round C :=
  if attempt ≤ w.maxRetries then .continues (messages ++ retryMessages raw err) usage
  else .ends (.exited "error: all attempts exhausted")

/-- The artifacts of a successful run: those of the backend, unless it fails. -/
def artifactsOf (backend : Backend) (program : C.Program) (source : String) (output : C.Output) :
    Option ProveArtifacts :=
  match (proveWith C w.env w.cli program source output backend w.dir).1 with
  | .ok artifacts => some artifacts
  | .error _ => none

/-- The report of a successful run. -/
def resultOf (attempt : Nat) (usage : TokenUsage) (source : String) (output : C.Output) :
    PipelineResult C.Output where
  task := w.task
  model := w.model
  source := source
  output := output
  config := w.cli.config C.defaultConfig
  attempts := attempt
  tokenUsage := usage

/-- The success exit of a round. -/
def reportRun (attempt : Nat) (usage : TokenUsage) (source : String) (program : C.Program)
    (output : C.Output) : Ending C :=
  if w.prove then
    match Backend.ofName w.cli.backend with
    | some backend =>
        .reported (resultOf w attempt usage source output)
          (artifactsOf w backend program source output)
    | none =>
        .exited s!"error: unknown --backend '{w.cli.backend}' (expected: noir, openvm)"
  else .reported (resultOf w attempt usage source output) none

/-- The body of the loop. -/
def attemptOnce (attempt : Nat) (messages : List Message) (totalUsage : TokenUsage) : Round C :=
  match w.generate attempt messages with
  | .error e => .ends (.exited s!"error: LLM generation failed: {e}")
  | .ok response =>
      match addUsage w.target totalUsage response.usage with
      | .error _ => .ends .panicked
      | .ok usage =>
          let source := stripCodeFences response.text
          if w.generateOnly then .ends (.printed source usage)
          else
            match compileAndVerify w.lua source with
            | .error e => retryOrGiveUp w attempt messages usage response.text e
            | .ok program =>
                match executeUnder C program C.nil (w.cli.config C.defaultConfig)
                    (w.host attempt LiveHost.new) w.policy with
                | .error e => retryOrGiveUp w attempt messages usage response.text e
                | .ok output => .ends (reportRun w attempt usage source program output)

/-- The loop, with the number of rounds that are left: the conversations that the model is
called with, and the end. -/
def retryLoop : Nat → Nat → List Message → TokenUsage → List (List Message) × Ending C
  | 0, _, _, _ => ([], .fellThrough)
  | left + 1, attempt, messages, totalUsage =>
      match attemptOnce w attempt messages totalUsage with
      | .ends ending => ([messages], ending)
      | .continues messages' usage =>
          let (calls, ending) := retryLoop left (attempt + 1) messages' usage
          (messages :: calls, ending)

/-- `for attempt in 1..=cli.max_retries + 1`, from the user's task on. -/
def retryMain : List (List Message) × Ending C :=
  match usizeAdd w.target w.maxRetries 1 with
  | .error _ => ([], .panicked)
  | .ok last => retryLoop w last 1 [⟨"user", w.task⟩] ⟨0, 0⟩

end Loop

namespace RetryLoop

/-! ## Histories -/

/-- A failed attempt: the response and the error it led to. -/
structure Exchange (C : ProvenoCrates) where
  response : LlmResponse
  error : PipelineError C.Value

section Histories

variable {C : ProvenoCrates} (w : Session C)

/-- The conversation after some failed attempts. -/
def conversation (xs : List (Exchange C)) : List Message :=
  ⟨"user", w.task⟩ :: xs.flatMap fun x => retryMessages x.response.text x.error

/-- The source of the attempt does not compile, or its program fails on a fresh host. -/
def Fails (attempt : Nat) (source : String) (err : PipelineError C.Value) : Prop :=
  compileAndVerify w.lua source = .error err ∨
    ∃ program, compileAndVerify w.lua source = .ok program ∧
      executeUnder C program C.nil (w.cli.config C.defaultConfig) (w.host attempt LiveHost.new)
        w.policy = .error err

/-- **The loop invariant**: each exchange is what an attempt really went like, on the conversation
before it. -/
inductive History : List (Exchange C) → Prop
  | start : History []
  | failed {xs : List (Exchange C)} {x : Exchange C} (before : History xs)
      (generated : w.generate (xs.length + 1) (conversation w xs) = .ok x.response)
      (fails : Fails w (xs.length + 1) (stripCodeFences x.response.text) x.error) :
      History (xs ++ [x])

/-- The tokens of some exchanges. -/
def tokens (count : TokenUsage → UInt64) (usages : List TokenUsage) : Nat :=
  (usages.map fun u => (count u).toNat).sum

/-- A counter that has been added up: the sum modulo `2 ^ 64`, and the sum itself where additions
are checked. -/
structure IsTotal (t : Target) (total : UInt64) (sum : Nat) : Prop where
  modulo : total.toNat = sum % 2 ^ 64
  checked : t.overflowChecks = true → sum < 2 ^ 64

/-- The total usage of some responses. -/
structure IsTotalUsage (t : Target) (total : TokenUsage) (usages : List TokenUsage) : Prop where
  input : IsTotal t total.inputTokens (tokens TokenUsage.inputTokens usages)
  output : IsTotal t total.outputTokens (tokens TokenUsage.outputTokens usages)

variable {w}

theorem conversation_concat (xs : List (Exchange C)) (x : Exchange C) :
    conversation w (xs ++ [x]) = conversation w xs ++ retryMessages x.response.text x.error := by
  rw [conversation, List.flatMap_append, List.flatMap_singleton]
  rfl

/-! ## Conversations -/

/-- **What a conversation looks like**: the task, then for each failed attempt the raw response
and the error message about its source. -/
structure Alternates (w : Session C) (xs : List (Exchange C)) (messages : List Message) :
    Prop where
  length : messages.length = 2 * xs.length + 1
  roles : ∀ i m, messages[i]? = some m → m.role = if i % 2 = 0 then "user" else "assistant"
  task : messages[0]? = some ⟨"user", w.task⟩
  response : ∀ j x, xs[j]? = some x → messages[2 * j + 1]? = some ⟨"assistant", x.response.text⟩
  feedback : ∀ j x, xs[j]? = some x → messages[2 * j + 2]?
    = some ⟨"user", formatErrorForRetry (stripCodeFences x.response.text) x.error⟩

theorem Alternates.start : Alternates w ([] : List (Exchange C)) [⟨"user", w.task⟩] where
  length := rfl
  roles := by
    intro i m hm
    rcases i with - | i
    · obtain rfl := Option.some.inj hm
      rfl
    · cases hm
  task := rfl
  response j x hx := by cases hx
  feedback j x hx := by cases hx

/-- An element of a longer list is an old one or the new one. -/
theorem getElem?_concat_cases {α : Type} {xs : List α} {x y : α} {j : Nat}
    (h : (xs ++ [x])[j]? = some y) :
    (j < xs.length ∧ xs[j]? = some y) ∨ (j = xs.length ∧ y = x) := by
  rw [List.getElem?_append, List.getElem?_singleton] at h
  by_cases hj : j < xs.length
  · rw [if_pos hj] at h
    exact Or.inl ⟨hj, h⟩
  · rw [if_neg hj] at h
    by_cases hlast : j - xs.length = 0
    · rw [if_pos hlast] at h
      exact Or.inr ⟨by omega, (Option.some.inj h).symm⟩
    · rw [if_neg hlast] at h
      cases h

/-- The first of the two messages answers, the second one asks. -/
theorem role_retryMessages {raw : String} {err : PipelineError C.Value} {i : Nat} {m : Message}
    (h : (retryMessages raw err)[i]? = some m) :
    m.role = if i % 2 = 0 then "assistant" else "user" := by
  rcases i with - | - | i
  · obtain rfl := Option.some.inj h
    rfl
  · obtain rfl := Option.some.inj h
    rfl
  · cases h

/-- One more failed attempt. -/
theorem Alternates.extend {xs : List (Exchange C)} {messages : List Message}
    (h : Alternates w xs messages) (x : Exchange C) :
    Alternates w (xs ++ [x]) (messages ++ retryMessages x.response.text x.error) := by
  have hlength : messages.length = 2 * xs.length + 1 := h.length
  have hold : ∀ i, i < 2 * xs.length + 1 →
      (messages ++ retryMessages x.response.text x.error)[i]? = messages[i]? := by
    intro i hi
    exact List.getElem?_append_left (by rw [hlength]; exact hi)
  have hnew : ∀ i, (messages ++ retryMessages x.response.text x.error)[2 * xs.length + 1 + i]?
      = (retryMessages x.response.text x.error)[i]? := by
    intro i
    rw [← hlength, List.getElem?_append_right (Nat.le_add_right _ _), Nat.add_sub_cancel_left]
  refine ⟨?_, ?_, ?_, ?_, ?_⟩
  · calc (messages ++ retryMessages x.response.text x.error).length
        = 2 * xs.length + 1 + 2 := by rw [List.length_append, hlength]; rfl
      _ = 2 * (xs ++ [x]).length + 1 := by rw [List.length_append, List.length_singleton]; omega
  · intro i m hm
    by_cases hi : i < 2 * xs.length + 1
    · rw [hold i hi] at hm
      exact h.roles i m hm
    · obtain ⟨d, rfl⟩ := Nat.exists_eq_add_of_le (Nat.le_of_not_lt hi)
      rw [hnew d] at hm
      rw [role_retryMessages hm]
      by_cases hd : d % 2 = 0
      · rw [if_pos hd, if_neg (by omega)]
      · rw [if_neg hd, if_pos (by omega)]
  · rw [hold 0 (by omega)]
    exact h.task
  · intro j y hy
    rcases getElem?_concat_cases hy with ⟨hj, hxs⟩ | ⟨rfl, rfl⟩
    · rw [hold _ (by omega)]
      exact h.response j y hxs
    · exact hnew 0
  · intro j y hy
    rcases getElem?_concat_cases hy with ⟨hj, hxs⟩ | ⟨rfl, rfl⟩
    · rw [hold _ (by omega)]
      exact h.feedback j y hxs
    · exact hnew 1

theorem alternates_conversation (xs : List (Exchange C)) : Alternates w xs (conversation w xs) := by
  induction xs using List.reverseRecOn with
  | nil => exact .start
  | append_singleton xs x ih =>
      rw [conversation_concat]
      exact ih.extend x

/-! ## Token counts -/

theorem isTotal_zero (t : Target) : IsTotal t 0 0 := ⟨rfl, fun _ => by decide⟩

theorem u64Add_isTotal {t : Target} {total a c : UInt64} {sum : Nat} (h : IsTotal t total sum)
    (hadd : u64Add t total a = .ok c) : IsTotal t c (sum + a.toNat) := by
  have hmodulo : (total + a).toNat = (sum + a.toNat) % 2 ^ 64 := by
    rw [UInt64.toNat_add, h.modulo, Nat.mod_add_mod]
  unfold u64Add at hadd
  split at hadd
  · next hfits =>
    obtain rfl := Except.ok.inj hadd
    refine ⟨hmodulo, ?_⟩
    intro hchecks
    have hsum : total.toNat = sum := by
      rw [h.modulo, Nat.mod_eq_of_lt (h.checked hchecks)]
    omega
  · split at hadd
    · cases hadd
    · next hunchecked =>
      obtain rfl := Except.ok.inj hadd
      exact ⟨hmodulo, fun hchecks => absurd hchecks hunchecked⟩

theorem tokens_concat (count : TokenUsage → UInt64) (usages : List TokenUsage) (u : TokenUsage) :
    tokens count (usages ++ [u]) = tokens count usages + (count u).toNat := by
  simp [tokens]

theorem addUsage_isTotalUsage {t : Target} {total usage total' : TokenUsage}
    {usages : List TokenUsage} (h : IsTotalUsage t total usages)
    (hadd : addUsage t total usage = .ok total') : IsTotalUsage t total' (usages ++ [usage]) := by
  rcases Run.bind_eq_ok hadd with ⟨input, hinput, hrest⟩
  rcases Run.bind_eq_ok hrest with ⟨output, houtput, hpure⟩
  obtain rfl := Except.ok.inj hpure
  constructor
  · rw [tokens_concat]
    exact u64Add_isTotal h.input hinput
  · rw [tokens_concat]
    exact u64Add_isTotal h.output houtput

/-! ## One round -/

/-- **A successful attempt and its report**: the program is the one that the source of the last
response compiles to, it has run on a host with an empty key-value store, and it is the one that
has been proven. -/
structure Reports (w : Session C) (attempt : Nat) (messages : List Message)
    (response : LlmResponse) (result : PipelineResult C.Output)
    (artifacts : Option ProveArtifacts) : Prop where
  generated : w.generate attempt messages = .ok response
  task : result.task = w.task
  attempts : result.attempts = attempt
  source : result.source = stripCodeFences response.text
  run : ∃ program, compileAndVerify w.lua result.source = .ok program ∧
    executeUnder C program C.nil (w.cli.config C.defaultConfig) (w.host attempt LiveHost.new)
      w.policy = .ok result.output ∧
    if w.prove then ∃ backend, Backend.ofName w.cli.backend = some backend ∧
      artifacts = artifactsOf w backend program result.source result.output
    else artifacts = none

/-- What the success exit reports. -/
theorem reportRun_eq {attempt : Nat} {usage : TokenUsage} {source : String} {program : C.Program}
    {output : C.Output} {result : PipelineResult C.Output} {artifacts : Option ProveArtifacts}
    (h : reportRun w attempt usage source program output = .reported result artifacts) :
    result = resultOf w attempt usage source output ∧
      if w.prove then ∃ backend, Backend.ofName w.cli.backend = some backend ∧
        artifacts = artifactsOf w backend program source output
      else artifacts = none := by
  unfold reportRun at h
  by_cases hprove : w.prove = true
  · rw [if_pos hprove] at h ⊢
    cases hbackend : Backend.ofName w.cli.backend with
    | none => simp only [hbackend, reduceCtorEq] at h
    | some backend =>
        simp only [hbackend] at h
        rcases Ending.reported.inj h with ⟨hresult, hartifacts⟩
        exact ⟨hresult.symm, backend, rfl, hartifacts.symm⟩
  · rw [if_neg hprove] at h ⊢
    rcases Ending.reported.inj h with ⟨hresult, hartifacts⟩
    exact ⟨hresult.symm, hartifacts.symm⟩

theorem reportRun_reports {attempt : Nat} {messages : List Message} {response : LlmResponse}
    {usage : TokenUsage} {source : String} {program : C.Program} {output : C.Output}
    (hgenerated : w.generate attempt messages = .ok response)
    (hsource : source = stripCodeFences response.text)
    (hcompiled : compileAndVerify w.lua source = .ok program)
    (hexecuted : executeUnder C program C.nil (w.cli.config C.defaultConfig)
      (w.host attempt LiveHost.new) w.policy = .ok output)
    {result : PipelineResult C.Output} {artifacts : Option ProveArtifacts}
    (h : reportRun w attempt usage source program output = .reported result artifacts) :
    Reports w attempt messages response result artifacts ∧ result.tokenUsage = usage := by
  rcases reportRun_eq h with ⟨rfl, hartifacts⟩
  exact ⟨⟨hgenerated, rfl, rfl, hsource, program, hcompiled, hexecuted, hartifacts⟩, rfl⟩

theorem reportRun_ne_fellThrough (attempt : Nat) (usage : TokenUsage) (source : String)
    (program : C.Program) (output : C.Output) :
    reportRun w attempt usage source program output ≠ .fellThrough := by
  unfold reportRun
  split
  · split <;> simp
  · simp

/-- **What a round can do**: it goes on after a failure that leaves a try, or it ends, and then
it reports only what the attempt has really done. -/
def AttemptCases (w : Session C) (attempt : Nat) (messages : List Message)
    (total : TokenUsage) : Prop :=
  (∃ response err usage, attempt ≤ w.maxRetries ∧
    w.generate attempt messages = .ok response ∧
    addUsage w.target total response.usage = .ok usage ∧
    Fails w attempt (stripCodeFences response.text) err ∧
    attemptOnce w attempt messages total
      = .continues (messages ++ retryMessages response.text err) usage) ∨
  ∃ ending, attemptOnce w attempt messages total = .ends ending ∧ ending ≠ .fellThrough ∧
    ∀ result artifacts, ending = .reported result artifacts → ∃ response,
      Reports w attempt messages response result artifacts ∧
      addUsage w.target total response.usage = .ok result.tokenUsage

/-- A round that ends without a report. -/
theorem attemptCases_of_quiet {attempt : Nat} {messages : List Message} {total : TokenUsage}
    {ending : Ending C} (honce : attemptOnce w attempt messages total = .ends ending)
    (hends : ending ≠ .fellThrough)
    (hquiet : ∀ result artifacts, ending ≠ .reported result artifacts) :
    AttemptCases w attempt messages total := by
  refine Or.inr ⟨ending, honce, hends, ?_⟩
  intro result artifacts h
  exact absurd h (hquiet result artifacts)

/-- A round with a failure: both failure exits lead to the same pair of messages. -/
theorem attemptCases_of_failure {attempt : Nat} {messages : List Message}
    {total usage : TokenUsage} {response : LlmResponse} {err : PipelineError C.Value}
    (hgenerate : w.generate attempt messages = .ok response)
    (husage : addUsage w.target total response.usage = .ok usage)
    (hfails : Fails w attempt (stripCodeFences response.text) err)
    (honce : attemptOnce w attempt messages total
      = retryOrGiveUp w attempt messages usage response.text err) :
    AttemptCases w attempt messages total := by
  by_cases hleft : attempt ≤ w.maxRetries
  · rw [retryOrGiveUp, if_pos hleft] at honce
    exact Or.inl ⟨response, err, usage, hleft, hgenerate, husage, hfails, honce⟩
  · rw [retryOrGiveUp, if_neg hleft] at honce
    exact attemptCases_of_quiet honce (by simp) (by simp)

theorem attemptOnce_cases (w : Session C) (attempt : Nat) (messages : List Message)
    (total : TokenUsage) : AttemptCases w attempt messages total := by
  rcases hgenerate : w.generate attempt messages with e | response
  · have honce : attemptOnce w attempt messages total
        = .ends (.exited s!"error: LLM generation failed: {e}") := by rw [attemptOnce, hgenerate]
    exact attemptCases_of_quiet honce (by simp) (by simp)
  rcases husage : addUsage w.target total response.usage with p | usage
  · have honce : attemptOnce w attempt messages total = .ends .panicked := by
      simp only [attemptOnce, hgenerate, husage]
    exact attemptCases_of_quiet honce (by simp) (by simp)
  by_cases honly : w.generateOnly = true
  · have honce : attemptOnce w attempt messages total
        = .ends (.printed (stripCodeFences response.text) usage) := by
      simp only [attemptOnce, hgenerate, husage, honly, if_true]
    exact attemptCases_of_quiet honce (by simp) (by simp)
  rcases hcompile : compileAndVerify w.lua (stripCodeFences response.text) with err | program
  · have honce : attemptOnce w attempt messages total
        = retryOrGiveUp w attempt messages usage response.text err := by
      simp only [attemptOnce, hgenerate, husage, honly, hcompile, Bool.false_eq_true, if_false]
    exact attemptCases_of_failure hgenerate husage (Or.inl hcompile) honce
  rcases hexecute : executeUnder C program C.nil (w.cli.config C.defaultConfig)
    (w.host attempt LiveHost.new) w.policy with err | output
  · have honce : attemptOnce w attempt messages total
        = retryOrGiveUp w attempt messages usage response.text err := by
      simp only [attemptOnce, hgenerate, husage, honly, hcompile, hexecute, Bool.false_eq_true,
        if_false]
    exact attemptCases_of_failure hgenerate husage (Or.inr ⟨program, hcompile, hexecute⟩) honce
  · have honce : attemptOnce w attempt messages total
        = .ends (reportRun w attempt usage (stripCodeFences response.text) program output) := by
      simp only [attemptOnce, hgenerate, husage, honly, hcompile, hexecute, Bool.false_eq_true,
        if_false]
    refine Or.inr ⟨_, honce, reportRun_ne_fellThrough _ _ _ _ _, ?_⟩
    intro result artifacts h
    rcases reportRun_reports hgenerate rfl hcompile hexecute h with ⟨hreports, hsame⟩
    exact ⟨response, hreports, by rw [husage, hsame]⟩

/-! ## The loop -/

/-- The usages of the responses of some exchanges. -/
def usages (xs : List (Exchange C)) : List TokenUsage := xs.map fun x => x.response.usage

/-- What the loop does from a conversation on: each call gets a longer history, and a report
belongs to the last one. -/
structure LoopSpec (w : Session C) (xs : List (Exchange C)) (left : Nat)
    (calls : List (List Message)) (ending : Ending C) : Prop where
  bounded : calls.length ≤ left
  history : ∀ k messages, calls[k]? = some messages → ∃ ys, History w ys ∧
    ys.length = xs.length + k ∧ messages = conversation w ys
  ends : ending ≠ .fellThrough
  report : ∀ result artifacts, ending = .reported result artifacts → ∃ ys response,
    History w ys ∧ ys.length + 1 = xs.length + calls.length ∧
    calls.getLast? = some (conversation w ys) ∧
    Reports w (ys.length + 1) (conversation w ys) response result artifacts ∧
    IsTotalUsage w.target result.tokenUsage (usages ys ++ [response.usage])

/-- The round ends the loop. -/
theorem LoopSpec.last {xs : List (Exchange C)} {left : Nat} {ending : Ending C}
    (hxs : History w xs) (hends : ending ≠ .fellThrough)
    (hreport : ∀ result artifacts, ending = .reported result artifacts → ∃ response,
      Reports w (xs.length + 1) (conversation w xs) response result artifacts ∧
      IsTotalUsage w.target result.tokenUsage (usages xs ++ [response.usage])) :
    LoopSpec w xs (left + 1) [conversation w xs] ending where
  bounded := by simp
  history := by
    intro k messages hk
    rcases k with - | k
    · exact ⟨xs, hxs, rfl, (Option.some.inj hk).symm⟩
    · cases hk
  ends := hends
  report := by
    intro result artifacts h
    rcases hreport result artifacts h with ⟨response, hreports, husage⟩
    exact ⟨xs, response, hxs, rfl, rfl, hreports, husage⟩

/-- The rest of the loop starts from a history with one more failed attempt. -/
theorem LoopSpec.next {xs : List (Exchange C)} {x : Exchange C} {left : Nat}
    {calls : List (List Message)} {ending : Ending C} (hxs : History w xs)
    (hrest : LoopSpec w (xs ++ [x]) left calls ending) :
    LoopSpec w xs (left + 1) (conversation w xs :: calls) ending := by
  have hlength : (xs ++ [x]).length = xs.length + 1 := by
    rw [List.length_append, List.length_singleton]
  refine ⟨Nat.succ_le_succ hrest.bounded, ?_, hrest.ends, ?_⟩
  · intro k messages hk
    rcases k with - | k
    · exact ⟨xs, hxs, rfl, (Option.some.inj hk).symm⟩
    · rcases hrest.history k messages hk with ⟨ys, hhistory, hlen, hmessages⟩
      exact ⟨ys, hhistory, by omega, hmessages⟩
  · intro result artifacts h
    rcases hrest.report result artifacts h with ⟨ys, response, hhistory, hlen, hlast, hreports⟩
    refine ⟨ys, response, hhistory, ?_, ?_, hreports⟩
    · rw [List.length_cons]
      omega
    · rw [List.getLast?_cons, hlast]
      rfl

/-- **The loop keeps the invariant**: by induction on the rounds that are left. -/
theorem retryLoop_spec (w : Session C) (left : Nat) (xs : List (Exchange C)) (total : TokenUsage)
    (hxs : History w xs) (htotal : IsTotalUsage w.target total (usages xs))
    (hleft : xs.length + left = w.maxRetries + 1) (hpos : 0 < left) :
    LoopSpec w xs left (retryLoop w left (xs.length + 1) (conversation w xs) total).1
      (retryLoop w left (xs.length + 1) (conversation w xs) total).2 := by
  induction left generalizing xs total with
  | zero => exact absurd hpos (Nat.lt_irrefl 0)
  | succ left ih =>
      rcases attemptOnce_cases w (xs.length + 1) (conversation w xs) total with
        ⟨response, err, usage, hretry, hgenerate, husage, hfails, honce⟩ |
        ⟨ending, honce, hends, hreport⟩
      · let x : Exchange C := ⟨response, err⟩
        have hys : History w (xs ++ [x]) := .failed hxs hgenerate hfails
        have htotal' : IsTotalUsage w.target usage (usages (xs ++ [x])) := by
          rw [usages, List.map_append]
          exact addUsage_isTotalUsage htotal husage
        have hlength : (xs ++ [x]).length = xs.length + 1 := by
          rw [List.length_append, List.length_singleton]
        have hrest := ih (xs ++ [x]) usage hys htotal' (by omega) (by omega)
        have hloop : retryLoop w (left + 1) (xs.length + 1) (conversation w xs) total
            = (conversation w xs ::
                (retryLoop w left ((xs ++ [x]).length + 1) (conversation w (xs ++ [x])) usage).1,
              (retryLoop w left ((xs ++ [x]).length + 1) (conversation w (xs ++ [x])) usage).2) := by
          rw [retryLoop, honce, hlength, conversation_concat]
        rw [hloop]
        exact hrest.next hxs
      · have hloop : retryLoop w (left + 1) (xs.length + 1) (conversation w xs) total
            = ([conversation w xs], ending) := by
          rw [retryLoop, honce]
        rw [hloop]
        apply LoopSpec.last hxs hends
        intro result artifacts h
        rcases hreport result artifacts h with ⟨response, hreports, husage⟩
        exact ⟨response, hreports, addUsage_isTotalUsage htotal husage⟩

/-! ## The whole run -/

/-- **What the retry loop guarantees**, in terms of the calls to the model and of the end. -/
structure RunSpec (w : Session C) (calls : List (List Message)) (ending : Ending C) : Prop where
  /-- There are at most `max_retries + 1` calls. -/
  bounded : calls.length ≤ w.maxRetries + 1
  /-- The call after `k` failed attempts gets the task and a pair of messages for each of them. -/
  call : ∀ k messages, calls[k]? = some messages → ∃ xs, History w xs ∧ xs.length = k ∧
    Alternates w xs messages
  /-- The code after the loop is not reached. -/
  ends : ending ≠ .fellThrough
  /-- A report is about the last call, and its usage is that of all calls. -/
  report : ∀ result artifacts, ending = .reported result artifacts → ∃ xs messages response,
    History w xs ∧ calls.length = xs.length + 1 ∧ calls.getLast? = some messages ∧
    Reports w calls.length messages response result artifacts ∧
    IsTotalUsage w.target result.tokenUsage (usages xs ++ [response.usage])

end Histories

end RetryLoop

open RetryLoop

/-- **The retry loop.** For every task, every number of retries that can be counted up, every
model and every outcome of compilation and execution. -/
theorem retry_loop_invariant {C : ProvenoCrates} (w : Session C)
    (hcount : w.maxRetries + 1 < 2 ^ w.target.bits) :
    RunSpec w (retryMain w).1 (retryMain w).2 := by
  have hmain : retryMain w
      = retryLoop w (w.maxRetries + 1) 1 (conversation w []) ⟨0, 0⟩ := by
    rw [retryMain, usizeAdd_ok hcount]
    rfl
  have hzero : IsTotalUsage w.target ⟨0, 0⟩ (usages ([] : List (Exchange C))) :=
    ⟨isTotal_zero _, isTotal_zero _⟩
  have hspec := retryLoop_spec w (w.maxRetries + 1) [] ⟨0, 0⟩ .start hzero (Nat.zero_add _)
    (Nat.succ_pos _)
  rw [List.length_nil, Nat.zero_add, ← hmain] at hspec
  refine ⟨hspec.bounded, ?_, hspec.ends, ?_⟩
  · intro k messages hk
    rcases hspec.history k messages hk with ⟨xs, hxs, hlength, rfl⟩
    refine ⟨xs, hxs, ?_, alternates_conversation xs⟩
    rw [hlength, List.length_nil, Nat.zero_add]
  · intro result artifacts h
    rcases hspec.report result artifacts h with
      ⟨xs, response, hxs, hlength, hlast, hreports, husage⟩
    rw [List.length_nil, Nat.zero_add] at hlength
    refine ⟨xs, conversation w xs, response, hxs, hlength.symm, hlast, ?_, husage⟩
    rw [← hlength]
    exact hreports

/-! ## Two sessions -/

/-- A compiler that knows one program. -/
def plainCompiler : LuaCompiler plainCrates where
  Ast := PlainProgram
  parse source := if source = "return 1 + 2" then .ok addProgram else .error "UnexpectedEof"
  compile ast := .ok ast
  verify _ := .ok ()

/-- A model that forgets a summand at first. -/
def forgetfulModel (first second : TokenUsage) (attempt : Nat) : Except String LlmResponse :=
  if attempt = 1 then .ok ⟨"return 1 +", first⟩
  else .ok ⟨"```lua\nreturn 1 + 2\n```", second⟩

/-- A session with that model, proven with the Noir backend. -/
def addSession (overflowChecks : Bool) (first second : TokenUsage) : Session plainCrates where
  target := { Target.host64 with overflowChecks }
  cli := plainCli "noir" none
  task := "add one and two"
  model := "claude-sonnet-4-6"
  maxRetries := 3
  generateOnly := false
  prove := true
  policy := none
  lua := plainCompiler
  generate attempt _ := forgetfulModel first second attempt
  host _ _ := ()
  env := quietEnv
  dir := fun _ => none

/-- The report, if there is one. -/
def Ending.result {C : ProvenoCrates} : Ending C → Option (PipelineResult C.Output)
  | .reported result _ => some result
  | _ => none

/-- The attempts and the input tokens that a session reports. -/
def Session.reported {C : ProvenoCrates} (w : Session C) : Option (Nat × UInt64) :=
  (retryMain w).2.result.map fun r => (r.attempts, r.tokenUsage.inputTokens)

theorem retry_loop_invariant_add :
    (addSession true ⟨120, 10⟩ ⟨180, 12⟩).reported = some (2, 300) ∧
      RunSpec (addSession true ⟨120, 10⟩ ⟨180, 12⟩)
        (retryMain (addSession true ⟨120, 10⟩ ⟨180, 12⟩)).1
        (retryMain (addSession true ⟨120, 10⟩ ⟨180, 12⟩)).2 :=
  ⟨by decide +kernel, retry_loop_invariant (addSession true ⟨120, 10⟩ ⟨180, 12⟩) (by decide)⟩

/-- Without overflow checks a usage of `2 ^ 64` tokens is reported as none at all. -/
theorem token_sum_wraps :
    (addSession false ⟨18446744073709551615, 0⟩ ⟨1, 0⟩).reported = some (2, 0) ∧
      tokens TokenUsage.inputTokens [⟨18446744073709551615, 0⟩, ⟨1, 0⟩] = 2 ^ 64 := by
  constructor
  · decide +kernel
  · rfl

end ProvenoOracle
