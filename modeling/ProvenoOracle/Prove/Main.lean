import ProvenoOracle.Prove.Batch
import ProvenoOracle.Tools.Descriptions

/-! # The command line

`main.rs`: before anything is sent, `main` loads the policy, chooses the provider, takes the API
key from the environment and checks that the options go together. Then it runs a batch, or the
retry loop.

`main_requests` says when it asks the model for anything at all, whom, and how often.
-/

set_option autoImplicit false

namespace ProvenoOracle

open RetryLoop

/-! ## The command line -/

/-- `Cli`: the arguments that `main` reads before a run, and those of the run. -/
structure CommandLine where
  task : String
  provider : String
  model : Option String
  ollamaUrl : String
  maxRetries : Nat
  generateOnly : Bool
  generateAndCompile : Bool
  /-- `--repeat` -/
  repeats : Option Nat
  prove : Bool
  run : Cli

/-- The arguments that are not given. -/
def CommandLine.default (task : String) : CommandLine where
  task := task
  provider := "anthropic"
  model := none
  ollamaUrl := "http://localhost:11434"
  maxRetries := 3
  generateOnly := false
  generateAndCompile := false
  repeats := none
  prove := false
  run := ⟨none, none, none, none, "noir", "app", "proof-output", "noir"⟩

/-- What surrounds a run of `main`, which the model and the tools answer as they like. -/
structure MainWorld (C : ProvenoCrates) where
  target : Target
  /-- The variables of the process. -/
  exported : String → Option String
  /-- Those of the file `.env`, if there is one. -/
  dotenv : String → Option String
  lua : LuaCompiler C
  /-- The provider, at each attempt or run. -/
  api : Nat → Api
  latencyMs : Nat → Nat
  /-- `Vec::with_capacity`, for the outcomes of a batch. (If it aborts for want of memory, that
  counts as a panic.) -/
  reserve : Nat → Run Unit
  host : Nat → LiveHost → C.Host
  env : Env C
  dir : OutputDir

/-- How a run of `main` ends. -/
inductive MainEnding (C : ProvenoCrates) where
  /-- Before anything is sent. -/
  | refused (message : String)
  | batch (outcomes : Run (List GenerateCompileOutcome))
  | retried (ending : Ending C)

/-- A run of `main`: the requests for the task that it hands to the HTTP client, which can be built,
and its end. The tools of a program that it runs send requests of their own, which are not among
them. -/
structure MainRun (C : ProvenoCrates) where
  requests : List ApiRequest
  ending : MainEnding C

section Main

variable {C : ProvenoCrates} (c : CommandLine) (m : MainWorld C)

/-- `std::env::var`, after `dotenvy::dotenv`: a variable that is there is not overridden. -/
def MainWorld.var (name : String) : Option String := (m.exported name).or (m.dotenv name)

/-- The policy. -/
def loadPolicy : Except String (Option C.Policy) :=
  match c.run.policy with
  | some spec => ((m.env.loadSpec spec).map some).mapError fun e => s!"error: {e}"
  | none => .ok none

/-- The API key. -/
def apiKeyOf (var : Option String) : Except String String :=
  match var with
  | some key =>
      if (strTrim key).isEmpty then
        .error ("error: ANTHROPIC_API_KEY is set but empty, which shadows the value " ++
          "in .env (dotenv does not override variables already set).\n       " ++
          "Run `unset ANTHROPIC_API_KEY` or export a real key.")
      else .ok key
  | none => .error "error: ANTHROPIC_API_KEY environment variable not set"

/-- The provider and the model, as a client. -/
def clientOf : Except String LlmClient :=
  match c.provider with
  | "anthropic" =>
      (apiKeyOf (m.var "ANTHROPIC_API_KEY")).map fun key =>
        ⟨.anthropic key, c.model.getD "claude-sonnet-4-6"⟩
  | "ollama" => .ok ⟨.ollama c.ollamaUrl, c.model.getD "llama3.1"⟩
  | other =>
      .error s!"error: unknown --provider '{other}' (expected 'anthropic' or 'ollama')"

/-- The system prompt. -/
def mainPrompt : String := buildSystemPrompt liveToolDescriptions

/-- The requests of a batch, from the `i`-th run on: one for each run that is reached. -/
def batchRequests (client : LlmClient) : Nat → Nat → List ApiRequest
  | _, 0 => []
  | i, left + 1 =>
      let outcome := generateAndCompile m.lua client mainPrompt c.task (m.api i) (m.latencyMs i)
      client.request mainPrompt [⟨"user", c.task⟩] ::
        match outcome.usage.total m.target with
        | .error _ => []
        | .ok _ => batchRequests client (i + 1) left

/-- The session of the retry loop. -/
def mainSession (policy : Option C.Policy) (client : LlmClient) : Session C where
  target := m.target
  cli := c.run
  task := c.task
  model := client.model
  maxRetries := c.maxRetries
  generateOnly := c.generateOnly
  prove := c.prove
  policy := policy
  lua := m.lua
  generate attempt messages :=
    (client.generate (m.api attempt) mainPrompt messages).mapError LlmError.text
  host := m.host
  env := m.env
  dir := m.dir

/-- A batch. -/
def mainBatch (client : LlmClient) (n : Nat) : MainRun C where
  requests :=
    match m.reserve n with
    | .error _ => []
    | .ok _ => batchRequests c m client 1 n
  ending := .batch (runGenerateAndCompileBatch m.target m.lua client mainPrompt c.task m.reserve
    m.api m.latencyMs n)

/-- The retry loop. -/
def mainLoop (policy : Option C.Policy) (client : LlmClient) : MainRun C where
  requests := runRequests (mainSession c m policy client) m.api client mainPrompt
  ending := .retried (retryMain (mainSession c m policy client)).2

/-- `main` -/
def mainRun : MainRun C :=
  match loadPolicy c m with
  | .error e => ⟨[], .refused e⟩
  | .ok policy =>
      match clientOf c m with
      | .error e => ⟨[], .refused e⟩
      | .ok client =>
          if c.generateAndCompile then
            match c.repeats with
            | some 0 => ⟨[], .refused "error: --repeat must be >= 1"⟩
            | repeats => mainBatch c m client (repeats.getD 1)
          else
            match c.repeats with
            | some _ => ⟨[], .refused "error: --repeat requires --generate-and-compile"⟩
            | none => mainLoop c m policy client

/-! ## What is asked for -/

/-- **A command line that is not refused**, with the client that it asks for. -/
structure Accepts (client : LlmClient) : Prop where
  policy : ∀ spec, c.run.policy = some spec → ∃ policy, m.env.loadSpec spec = .ok policy
  client : (c.provider = "anthropic" ∧ ∃ key, m.var "ANTHROPIC_API_KEY" = some key ∧
      strTrim key ≠ "" ∧ client = ⟨.anthropic key, c.model.getD "claude-sonnet-4-6"⟩) ∨
    (c.provider = "ollama" ∧ client = ⟨.ollama c.ollamaUrl, c.model.getD "llama3.1"⟩)
  repeats : ∀ n, c.repeats = some n → c.generateAndCompile = true ∧ 1 ≤ n

/-- The process ends before its first request: there is no room for the outcomes of a batch, or the
number of attempts leaves `usize`. -/
def StopsEarly : Prop :=
  if c.generateAndCompile then ∃ p, m.reserve (c.repeats.getD 1) = .error p
  else c.maxRetries + 1 = 2 ^ m.target.bits

/-- The number of requests that a command line asks for at most. -/
def CommandLine.bound : Nat :=
  if c.generateAndCompile then c.repeats.getD 1
  else if c.generateOnly then 1
  else c.maxRetries + 1

/-- The requests of a client for the task: there is one, there are not too many, and each starts
with the prompt and the task. -/
structure SendsTask (client : LlmClient) (requests : List ApiRequest) : Prop where
  started : 1 ≤ requests.length
  bounded : requests.length ≤ c.bound
  ofClient : ∀ r ∈ requests, ∃ messages, r = client.request mainPrompt messages ∧
    messages[0]? = some ⟨"user", c.task⟩

variable {c m}

/-! ## Refusals -/

theorem loadPolicy_ok_iff : (∃ policy, loadPolicy c m = .ok policy) ↔
    ∀ spec, c.run.policy = some spec → ∃ policy, m.env.loadSpec spec = .ok policy := by
  unfold loadPolicy
  cases c.run.policy with
  | none => simp
  | some spec => cases hspec : m.env.loadSpec spec <;> simp [hspec, Except.map, Except.mapError]

theorem apiKeyOf_ok_iff {var : Option String} {key : String} :
    apiKeyOf var = .ok key ↔ var = some key ∧ strTrim key ≠ "" := by
  unfold apiKeyOf
  cases var with
  | none => simp
  | some k =>
      by_cases hempty : (strTrim k).isEmpty = true
      · have htrim : strTrim k = "" := by simpa using hempty
        simp only [hempty, if_true, reduceCtorEq, Option.some_inj, false_iff, not_and, not_not]
        rintro rfl
        exact htrim
      · have htrim : strTrim k ≠ "" := by simpa using hempty
        simp only [hempty, Bool.false_eq_true, if_false, Except.ok.injEq, Option.some_inj]
        exact ⟨fun h => ⟨h, h ▸ htrim⟩, fun h => h.1⟩

/-- The provider's name decides. -/
theorem clientOf_anthropic (h : c.provider = "anthropic") : clientOf c m =
    (apiKeyOf (m.var "ANTHROPIC_API_KEY")).map fun key =>
      ⟨.anthropic key, c.model.getD "claude-sonnet-4-6"⟩ := by
  rw [clientOf, h]
  rfl

theorem clientOf_ollama (h : c.provider = "ollama") :
    clientOf c m = .ok ⟨.ollama c.ollamaUrl, c.model.getD "llama3.1"⟩ := by
  rw [clientOf, h]
  rfl

theorem clientOf_unknown (h : c.provider ≠ "anthropic") (h' : c.provider ≠ "ollama") :
    ∃ e, clientOf c m = .error e := by
  unfold clientOf
  split
  · contradiction
  · contradiction
  · exact ⟨_, rfl⟩

theorem clientOf_ok_iff {client : LlmClient} : clientOf c m = .ok client ↔
    (c.provider = "anthropic" ∧ ∃ key, m.var "ANTHROPIC_API_KEY" = some key ∧
      strTrim key ≠ "" ∧ client = ⟨.anthropic key, c.model.getD "claude-sonnet-4-6"⟩) ∨
    (c.provider = "ollama" ∧ client = ⟨.ollama c.ollamaUrl, c.model.getD "llama3.1"⟩) := by
  constructor
  · intro h
    by_cases hanthropic : c.provider = "anthropic"
    · rw [clientOf_anthropic hanthropic] at h
      cases hkey : apiKeyOf (m.var "ANTHROPIC_API_KEY") with
      | error e => simp [hkey, Except.map] at h
      | ok key =>
          rw [hkey] at h
          obtain ⟨hvar, htrim⟩ := apiKeyOf_ok_iff.mp hkey
          exact Or.inl ⟨hanthropic, key, hvar, htrim, (Except.ok.inj h).symm⟩
    · by_cases hollama : c.provider = "ollama"
      · rw [clientOf_ollama hollama] at h
        exact Or.inr ⟨hollama, (Except.ok.inj h).symm⟩
      · obtain ⟨e, he⟩ := clientOf_unknown (m := m) hanthropic hollama
        rw [he] at h
        cases h
  · rintro (⟨hanthropic, key, hvar, htrim, rfl⟩ | ⟨hollama, rfl⟩)
    · rw [clientOf_anthropic hanthropic, apiKeyOf_ok_iff.mpr ⟨hvar, htrim⟩]
      rfl
    · exact clientOf_ollama hollama

/-- A client that a command line leads to is the only one. -/
theorem Accepts.clientOf {client : LlmClient} (h : Accepts c m client) :
    clientOf c m = .ok client := clientOf_ok_iff.mpr h.client

/-! ## Requests -/

theorem batchRequests_succ (client : LlmClient) (i n : Nat) : ∃ rest,
    batchRequests c m client i (n + 1) = client.request mainPrompt [⟨"user", c.task⟩] :: rest ∧
      (rest = [] ∨ rest = batchRequests c m client (i + 1) n) := by
  rw [batchRequests]
  cases (generateAndCompile m.lua client mainPrompt c.task (m.api i)
    (m.latencyMs i)).usage.total m.target with
  | error _ => exact ⟨_, rfl, Or.inl rfl⟩
  | ok _ => exact ⟨_, rfl, Or.inr rfl⟩

/-- The requests of a batch, by induction on the runs that are left. -/
theorem batchRequests_spec (client : LlmClient) (n : Nat) : ∀ i,
    (batchRequests c m client i n).length ≤ n ∧
      ∀ r ∈ batchRequests c m client i n, r = client.request mainPrompt [⟨"user", c.task⟩] := by
  induction n with
  | zero => exact fun _ => ⟨Nat.le_refl 0, by simp [batchRequests]⟩
  | succ n ih =>
      intro i
      obtain ⟨rest, hrequests, hrest⟩ := batchRequests_succ (c := c) (m := m) client i n
      obtain ⟨hlength, hrequest⟩ := ih (i + 1)
      rw [hrequests]
      rcases hrest with rfl | rfl
      · simp
      · exact ⟨by simpa using hlength, by simpa using hrequest⟩

theorem mainBatch_sends (client : LlmClient) {n : Nat} (hn : 1 ≤ n) (hroom : m.reserve n = .ok ())
    (hbatch : c.generateAndCompile = true) (hbound : c.repeats.getD 1 = n) :
    SendsTask c client (mainBatch c m client n).requests := by
  obtain ⟨hlength, hrequest⟩ := batchRequests_spec (c := c) (m := m) client n 1
  have hrequests : (mainBatch c m client n).requests = batchRequests c m client 1 n := by
    simp [mainBatch, hroom]
  rw [hrequests]
  refine ⟨?_, ?_, ?_⟩
  · obtain ⟨left, rfl⟩ := Nat.exists_eq_add_of_le' hn
    obtain ⟨rest, hfirst, -⟩ := batchRequests_succ (c := c) (m := m) client 1 left
    rw [hfirst]
    simp
  · rw [CommandLine.bound, if_pos hbatch, hbound]
    exact hlength
  · intro r hr
    exact ⟨_, hrequest r hr, rfl⟩

/-- With `--generate-only`, the first response is printed. -/
theorem retryMain_generateOnly {w : Session C} (h : w.generateOnly = true)
    (hcount : w.maxRetries + 1 < 2 ^ w.target.bits) : (retryMain w).1.length = 1 := by
  have hends : ∃ ending, attemptOnce w 1 [⟨"user", w.task⟩] ⟨0, 0⟩ = .ends ending := by
    unfold attemptOnce
    split
    · exact ⟨_, rfl⟩
    · split
      · exact ⟨_, rfl⟩
      · rw [if_pos h]
        exact ⟨_, rfl⟩
  obtain ⟨ending, hending⟩ := hends
  rw [retryMain, usizeAdd_ok hcount]
  show (retryLoop w (w.maxRetries + 1) 1 _ _).1.length = 1
  rw [retryLoop, hending]
  rfl

theorem mainLoop_sends (policy : Option C.Policy) (client : LlmClient)
    (hcount : c.maxRetries + 1 < 2 ^ m.target.bits) (hbatch : c.generateAndCompile = false) :
    SendsTask c client (mainLoop c m policy client).requests := by
  have hw : (mainSession c m policy client).maxRetries + 1
      < 2 ^ (mainSession c m policy client).target.bits := hcount
  obtain ⟨hbounded, hhistory⟩ := retryMain_history hw
  have hrequests : (mainLoop c m policy client).requests
      = (retryMain (mainSession c m policy client)).1.map (client.request mainPrompt) := rfl
  rw [hrequests]
  refine ⟨?_, ?_, ?_⟩
  · rw [List.length_map]
    obtain ⟨hfirst, -⟩ := List.getElem?_eq_some_iff.mp (retryMain_first hw).1
    omega
  · rw [List.length_map, CommandLine.bound, hbatch, if_neg Bool.false_ne_true]
    by_cases honly : c.generateOnly = true
    · rw [if_pos honly, retryMain_generateOnly honly hw]
    · rw [if_neg honly]
      exact hbounded
  · intro r hr
    obtain ⟨messages, hmessages, rfl⟩ := List.mem_map.mp hr
    obtain ⟨k, hk⟩ := List.mem_iff_getElem?.mp hmessages
    obtain ⟨xs, -, -, rfl⟩ := hhistory k messages hk
    exact ⟨_, rfl, rfl⟩

/-! ## `main` -/

/-- The API key goes to Anthropic only. -/
theorem Accepts.key {client : LlmClient} (haccepts : Accepts c m client) (system : String)
    (messages : List Message) :
    ∀ h ∈ (client.request system messages).headers, h.1 = "x-api-key" →
      c.provider = "anthropic" ∧ m.var "ANTHROPIC_API_KEY" = some h.2 ∧
        (client.request system messages).url = "https://api.anthropic.com/v1/messages" := by
  intro h hh hname
  rcases haccepts.client with ⟨hprovider, key, hvar, -, rfl⟩ | ⟨-, rfl⟩
  · have hheader : h = ("x-api-key", key) := by
      have hcases : h = ("x-api-key", key) ∨ h = ("anthropic-version", "2023-06-01") ∨
          h = ("content-type", "application/json") := by
        simpa [LlmClient.request, anthropicRequest] using hh
      rcases hcases with rfl | rfl | rfl
      · rfl
      · exact absurd hname (by decide)
      · exact absurd hname (by decide)
    rw [hheader]
    exact ⟨hprovider, hvar, rfl⟩
  · have hheader : h = ("content-type", "application/json") := by
      simpa [LlmClient.request, ollamaRequest] using hh
    rw [hheader] at hname
    exact absurd hname (by decide)

variable (c m) in
/-- What `main` sends, and whether it refuses. -/
inductive MainSpec (r : MainRun C) : Prop where
  | runs (client : LlmClient) (accepted : Accepts c m client) (able : ¬StopsEarly c m)
      (sends : SendsTask c client r.requests)
      (started : ∀ message, r.ending ≠ .refused message)
  | stops (client : LlmClient) (accepted : Accepts c m client) (early : StopsEarly c m)
      (silent : r.requests = []) (started : ∀ message, r.ending ≠ .refused message)
  | refuses (notAccepted : ¬ ∃ client, Accepts c m client) (silent : r.requests = [])
      (message : String) (ending : r.ending = .refused message)

theorem mainBatch_spec {client : LlmClient} (haccepts : Accepts c m client) {n : Nat} (hn : 1 ≤ n)
    (hbatch : c.generateAndCompile = true) (hbound : c.repeats.getD 1 = n) :
    MainSpec c m (mainBatch c m client n) := by
  have hearly : StopsEarly c m ↔ ∃ p, m.reserve n = .error p := by
    rw [StopsEarly, if_pos hbatch, hbound]
  cases hreserve : m.reserve n with
  | error p =>
      exact .stops client haccepts (hearly.mpr ⟨p, hreserve⟩) (by simp [mainBatch, hreserve])
        (by simp [mainBatch])
  | ok _ =>
      have hable : ¬StopsEarly c m := by simp [hearly, hreserve]
      exact .runs client haccepts hable (mainBatch_sends client hn hreserve hbatch hbound)
        (by simp [mainBatch])

/-- A sum that leaves `usize` panics, or wraps around to a loop without rounds. -/
theorem retryMain_overflow {w : Session C} (h : w.maxRetries + 1 = 2 ^ w.target.bits) :
    (retryMain w).1 = [] := by
  have hsum : ¬w.maxRetries + 1 < 2 ^ w.target.bits := by omega
  rw [retryMain, usizeAdd, if_neg hsum]
  by_cases hchecks : w.target.overflowChecks = true
  · rw [if_pos hchecks]
  · rw [if_neg hchecks, h, Nat.mod_self]
    rfl

theorem mainLoop_spec (policy : Option C.Policy) {client : LlmClient}
    (haccepts : Accepts c m client) (hretries : c.maxRetries < 2 ^ m.target.bits)
    (hbatch : c.generateAndCompile = false) : MainSpec c m (mainLoop c m policy client) := by
  have hearly : StopsEarly c m ↔ c.maxRetries + 1 = 2 ^ m.target.bits := by
    rw [StopsEarly, hbatch, if_neg Bool.false_ne_true]
  by_cases hsum : c.maxRetries + 1 = 2 ^ m.target.bits
  · have hnone : (retryMain (mainSession c m policy client)).1 = [] := retryMain_overflow hsum
    have hsilent : (mainLoop c m policy client).requests = [] :=
      congrArg (List.map (client.request mainPrompt)) hnone
    exact .stops client haccepts (hearly.mpr hsum) hsilent (by simp [mainLoop])
  · have hcount : c.maxRetries + 1 < 2 ^ m.target.bits := by omega
    exact .runs client haccepts (fun h => hsum (hearly.mp h))
      (mainLoop_sends policy client hcount hbatch) (by simp [mainLoop])

theorem mainRun_spec (hretries : c.maxRetries < 2 ^ m.target.bits) :
    MainSpec c m (mainRun c m) := by
  cases hpolicy : loadPolicy c m with
  | error e =>
      rw [mainRun, hpolicy]
      refine .refuses ?_ rfl e rfl
      rintro ⟨client, haccepts⟩
      obtain ⟨policy, hloaded⟩ := loadPolicy_ok_iff.mpr haccepts.policy
      rw [hpolicy] at hloaded
      cases hloaded
  | ok policy =>
      have hloads := loadPolicy_ok_iff.mp ⟨policy, hpolicy⟩
      cases hclient : clientOf c m with
      | error e =>
          rw [mainRun, hpolicy]
          simp only [hclient]
          refine .refuses ?_ rfl e rfl
          rintro ⟨client, haccepts⟩
          rw [haccepts.clientOf] at hclient
          cases hclient
      | ok client =>
          have hchosen := clientOf_ok_iff.mp hclient
          rw [mainRun, hpolicy]
          simp only [hclient]
          by_cases hbatch : c.generateAndCompile = true
          · rw [if_pos hbatch]
            rcases hrepeats : c.repeats with - | - | n
            · have haccepts : Accepts c m client := ⟨hloads, hchosen, by simp [hrepeats]⟩
              exact mainBatch_spec haccepts (Nat.le_refl 1) hbatch (by rw [hrepeats])
            · refine .refuses ?_ rfl _ rfl
              rintro ⟨client', haccepts⟩
              exact absurd (haccepts.repeats 0 hrepeats).2 (by decide)
            · have haccepts : Accepts c m client := ⟨hloads, hchosen, by simp [hrepeats, hbatch]⟩
              exact mainBatch_spec haccepts (Nat.succ_le_succ (Nat.zero_le n)) hbatch
                (by rw [hrepeats])
          · rw [if_neg hbatch]
            rcases hrepeats : c.repeats with - | n
            · have haccepts : Accepts c m client := ⟨hloads, hchosen, by simp [hrepeats]⟩
              exact mainLoop_spec policy haccepts hretries (by simpa using hbatch)
            · refine .refuses ?_ rfl _ rfl
              rintro ⟨client', haccepts⟩
              exact hbatch (haccepts.repeats n hrepeats).1

/-- **When `main` asks the model for the task, whom, and how often.** A command line that is
accepted leads to at least one request and at most as many as its mode allows, all of them to the
provider that it names, about its task, unless the process stops early. The API key goes to
Anthropic only, as it is in the environment. Any other command line is refused before anything is
sent. -/
theorem main_requests (c : CommandLine) (m : MainWorld C)
    (hretries : c.maxRetries < 2 ^ m.target.bits) :
    MainSpec c m (mainRun c m) ∧
      ∀ r ∈ (mainRun c m).requests, ∀ h ∈ r.headers, h.1 = "x-api-key" →
        c.provider = "anthropic" ∧ m.var "ANTHROPIC_API_KEY" = some h.2 ∧
          r.url = "https://api.anthropic.com/v1/messages" := by
  have hspec := mainRun_spec hretries
  refine ⟨hspec, ?_⟩
  intro r hr
  cases hspec with
  | runs client haccepts _ hsends =>
      obtain ⟨messages, rfl, -⟩ := hsends.ofClient r hr
      exact haccepts.key mainPrompt messages
  | stops _ _ _ hsilent =>
      rw [hsilent] at hr
      cases hr
  | refuses _ hsilent =>
      rw [hsilent] at hr
      cases hr

end Main

/-! ## A command line that is accepted -/

/-- A world with an exported key, and the model that forgets a summand at first. -/
def addWorld : MainWorld plainCrates where
  target := Target.host64
  exported name := if name = "ANTHROPIC_API_KEY" then some "sk-test" else none
  dotenv _ := none
  lua := plainCompiler
  api := forgetfulApi
  latencyMs _ := 850
  reserve _ := .ok ()
  host _ _ := ()
  env := quietEnv
  dir _ := none

theorem main_requests_add :
    (mainRun (CommandLine.default "add one and two") addWorld).requests.length = 2 ∧
      MainSpec (CommandLine.default "add one and two") addWorld
        (mainRun (CommandLine.default "add one and two") addWorld) :=
  ⟨by decide +kernel,
    (main_requests (CommandLine.default "add one and two") addWorld (by decide)).1⟩

end ProvenoOracle
