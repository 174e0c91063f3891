import ProvenoOracle.Prove.RetryLoop
import ProvenoOracle.Tools.HttpBody

/-! # The client of the language model

`llm.rs`: a conversation goes to one of two providers. Anthropic takes the system prompt in a field
of its own, Ollama takes it as the first message. Each answers in a format of its own, with or
without the number of tokens.

`generate` posts one request, `LlmClient.request`. Whichever the provider, it carries the system
prompt and the messages (`LlmClient.request_conversation`), and what `generate` returns comes
from the answer (`Answers`). For the requests of a whole run of the retry loop see
`run_requests_grow`.
-/

set_option autoImplicit false

namespace ProvenoOracle

/-! ## Requests and answers -/

/-- `llm::Backend` -/
inductive LlmBackend where
  | anthropic (apiKey : String)
  | ollama (baseUrl : String)

/-- `LlmClient` -/
structure LlmClient where
  backend : LlmBackend
  model : String

/-- `AnthropicRequest` -/
structure AnthropicRequest where
  model : String
  maxTokens : UInt32
  system : String
  messages : List Message

/-- `OllamaRequest` -/
structure OllamaRequest where
  model : String
  stream : Bool
  messages : List Message

/-- A body that is sent as JSON. -/
inductive RequestBody where
  | anthropic (request : AnthropicRequest)
  | ollama (request : OllamaRequest)

/-- A POST request. -/
structure ApiRequest where
  url : String
  headers : List (String × String)
  body : RequestBody

/-- `AnthropicResponse`: the text of the content blocks, and the usage. -/
structure AnthropicResponse where
  content : List String
  usage : Option (UInt64 × UInt64)

/-- `OllamaResponse`: the content of its message, and the counts. -/
structure OllamaResponse where
  content : String
  promptEvalCount : Option UInt64
  evalCount : Option UInt64

/-- A response: its status, its text, and what its JSON is parsed to. -/
structure ApiResponse where
  status : UInt16
  /-- `Display` of the status. -/
  statusText : String
  text : Except ReqwestError String
  anthropic : Except ReqwestError AnthropicResponse
  ollama : Except ReqwestError OllamaResponse

/-- What posting a request gives. -/
abbrev Api : Type := ApiRequest → Except ReqwestError ApiResponse

/-- `LlmError` -/
inductive LlmError where
  | http (e : ReqwestError)
  | api (msg : String)
  | noContent

/-- `Display` of an `LlmError`. -/
def LlmError.text : LlmError → String
  | .http e => s!"HTTP error: {e.display}"
  | .api msg => s!"API error: {msg}"
  | .noContent => "empty response from API"

/-- `StatusCode::is_success` -/
def isSuccess (status : UInt16) : Bool := 200 ≤ status && status < 300

/-- `str::trim_end_matches`, for a character. -/
def strTrimEndMatches (s : String) (c : Char) : String :=
  String.ofList (s.toList.rdropWhile (· == c))

/-! ## The client -/

/-- The request of `generate_anthropic`. -/
def anthropicRequest (model apiKey system : String) (messages : List Message) : ApiRequest where
  url := "https://api.anthropic.com/v1/messages"
  headers := [("x-api-key", apiKey), ("anthropic-version", "2023-06-01"),
    ("content-type", "application/json")]
  body := .anthropic ⟨model, 4096, system, messages⟩

/-- The request of `generate_ollama`: the system prompt is the first message. -/
def ollamaRequest (model baseUrl system : String) (messages : List Message) : ApiRequest where
  url := strTrimEndMatches baseUrl '/' ++ "/api/chat"
  headers := [("content-type", "application/json")]
  body := .ollama ⟨model, false, ⟨"system", system⟩ :: messages⟩

/-- The part that both providers share: a response that reports success is read, and an empty text
is an error. -/
def readResponse (sent : Except ReqwestError ApiResponse)
    (read : ApiResponse → Except ReqwestError LlmResponse) : Except LlmError LlmResponse :=
  match sent with
  | .error e => .error (.http e)
  | .ok resp =>
      if isSuccess resp.status then
        match read resp with
        | .error e => .error (.http e)
        | .ok response => if response.text.isEmpty then .error .noContent else .ok response
      else
        let body := match resp.text with
          | .ok body => body
          | .error _ => ""
        .error (.api s!"status {resp.statusText}: {body}")

/-- What `generate_anthropic` reads: the texts of all blocks, and the usage if there is one. -/
def readAnthropic (resp : ApiResponse) : Except ReqwestError LlmResponse :=
  resp.anthropic.map fun r => ⟨String.join r.content,
    match r.usage with
    | some (inputTokens, outputTokens) => ⟨inputTokens, outputTokens⟩
    | none => ⟨0, 0⟩⟩

/-- What `generate_ollama` reads. -/
def readOllama (resp : ApiResponse) : Except ReqwestError LlmResponse :=
  resp.ollama.map fun r => ⟨r.content, ⟨r.promptEvalCount.getD 0, r.evalCount.getD 0⟩⟩

/-- `generate_anthropic` -/
def LlmClient.generateAnthropic (client : LlmClient) (api : Api) (apiKey system : String)
    (messages : List Message) : Except LlmError LlmResponse :=
  readResponse (api (anthropicRequest client.model apiKey system messages)) readAnthropic

/-- `generate_ollama` -/
def LlmClient.generateOllama (client : LlmClient) (api : Api) (baseUrl system : String)
    (messages : List Message) : Except LlmError LlmResponse :=
  readResponse (api (ollamaRequest client.model baseUrl system messages)) readOllama

/-- `generate` -/
def LlmClient.generate (client : LlmClient) (api : Api) (system : String)
    (messages : List Message) : Except LlmError LlmResponse :=
  match client.backend with
  | .anthropic apiKey => client.generateAnthropic api apiKey system messages
  | .ollama baseUrl => client.generateOllama api baseUrl system messages

/-! ## What is sent and what comes back -/

/-- The request of `generate`. -/
def LlmClient.request (client : LlmClient) (system : String) (messages : List Message) :
    ApiRequest :=
  match client.backend with
  | .anthropic apiKey => anthropicRequest client.model apiKey system messages
  | .ollama baseUrl => ollamaRequest client.model baseUrl system messages

/-- What `generate` reads from a response. -/
def LlmClient.read (client : LlmClient) : ApiResponse → Except ReqwestError LlmResponse :=
  match client.backend with
  | .anthropic _ => readAnthropic
  | .ollama _ => readOllama

/-- One request is posted, and its response is read. -/
theorem LlmClient.generate_eq (client : LlmClient) (api : Api) (system : String)
    (messages : List Message) :
    client.generate api system messages
      = readResponse (api (client.request system messages)) client.read := by
  unfold LlmClient.generate LlmClient.request LlmClient.read
  cases client.backend <;> rfl

/-- The conversation that the model sees: the system prompt and the messages. -/
def RequestBody.conversation : RequestBody → List Message
  | .anthropic r => ⟨"system", r.system⟩ :: r.messages
  | .ollama r => r.messages

/-- **Both providers are sent the same conversation.** -/
theorem LlmClient.request_conversation (client : LlmClient) (system : String)
    (messages : List Message) :
    (client.request system messages).body.conversation = ⟨"system", system⟩ :: messages := by
  unfold LlmClient.request
  cases client.backend <;> rfl

/-- The tokens that a response reports, if it does. -/
def LlmClient.reportedUsage (client : LlmClient) (resp : ApiResponse) :
    Option UInt64 × Option UInt64 :=
  match client.backend with
  | .anthropic _ =>
      match resp.anthropic with
      | .ok r => (r.usage.map Prod.fst, r.usage.map Prod.snd)
      | .error _ => (none, none)
  | .ollama _ =>
      match resp.ollama with
      | .ok r => (r.promptEvalCount, r.evalCount)
      | .error _ => (none, none)

/-- **The answer to a request**: a response that reports success, with a text that is not empty
and the usage that it reports, or zero. -/
structure Answers (client : LlmClient) (sent : Except ReqwestError ApiResponse)
    (response : LlmResponse) : Prop where
  text : response.text ≠ ""
  received : ∃ resp, sent = .ok resp ∧ isSuccess resp.status = true ∧
    client.read resp = .ok response ∧
    response.usage.inputTokens = (client.reportedUsage resp).1.getD 0 ∧
    response.usage.outputTokens = (client.reportedUsage resp).2.getD 0

theorem readResponse_ok {sent : Except ReqwestError ApiResponse}
    {read : ApiResponse → Except ReqwestError LlmResponse} {response : LlmResponse} :
    readResponse sent read = .ok response ↔
      ∃ resp, sent = .ok resp ∧ isSuccess resp.status = true ∧ read resp = .ok response ∧
        response.text ≠ "" := by
  unfold readResponse
  constructor
  · intro h
    split at h
    · cases h
    · rename_i resp
      split at h
      · rename_i hsuccess
        split at h
        · cases h
        · rename_i r hread
          split at h
          · cases h
          · rename_i hempty
            obtain rfl := Except.ok.inj h
            exact ⟨resp, rfl, hsuccess, hread, fun htext => hempty (by simp [htext])⟩
      · cases h
  · rintro ⟨resp, rfl, hsuccess, hread, htext⟩
    simp [hsuccess, hread, htext]

/-- The usage is read as it is reported. -/
theorem LlmClient.read_usage {client : LlmClient} {resp : ApiResponse} {response : LlmResponse}
    (h : client.read resp = .ok response) :
    response.usage.inputTokens = (client.reportedUsage resp).1.getD 0 ∧
      response.usage.outputTokens = (client.reportedUsage resp).2.getD 0 := by
  unfold LlmClient.read at h
  unfold LlmClient.reportedUsage
  cases hbackend : client.backend with
  | anthropic apiKey =>
      simp only [hbackend, readAnthropic] at h ⊢
      cases hanswer : resp.anthropic with
      | error e => simp [hanswer, Except.map] at h
      | ok r =>
          rw [hanswer] at h
          obtain rfl := Except.ok.inj h
          rcases r with ⟨content, - | usage⟩
          · exact ⟨rfl, rfl⟩
          · exact ⟨rfl, rfl⟩
  | ollama baseUrl =>
      simp only [hbackend, readOllama] at h ⊢
      cases hanswer : resp.ollama with
      | error e => simp [hanswer, Except.map] at h
      | ok r =>
          rw [hanswer] at h
          obtain rfl := Except.ok.inj h
          exact ⟨rfl, rfl⟩

theorem LlmClient.generate_ok {client : LlmClient} {api : Api} {system : String}
    {messages : List Message} {response : LlmResponse}
    (h : client.generate api system messages = .ok response) :
    Answers client (api (client.request system messages)) response := by
  rw [client.generate_eq] at h
  obtain ⟨resp, hsent, hsuccess, hread, htext⟩ := readResponse_ok.mp h
  exact ⟨htext, resp, hsent, hsuccess, hread, LlmClient.read_usage hread⟩

/-! ## The requests of a run -/

section Runs

open RetryLoop

variable {C : ProvenoCrates} (w : Session C) (api : Nat → Api) (client : LlmClient)
  (system : String)

/-- The session whose model is behind a client; the provider may answer each attempt as it
likes. -/
def Session.over : Session C :=
  { w with
    generate := fun attempt messages =>
      (client.generate (api attempt) system messages).mapError LlmError.text }

/-- The requests of a run of `main`. -/
def runRequests : List ApiRequest :=
  (retryMain (w.over api client system)).1.map (client.request system)

variable {w api client system}

theorem over_generate {attempt : Nat} {messages : List Message} {response : LlmResponse}
    (h : (w.over api client system).generate attempt messages = .ok response) :
    client.generate (api attempt) system messages = .ok response := by
  have hmap : (client.generate (api attempt) system messages).mapError LlmError.text
      = .ok response := h
  cases hclient : client.generate (api attempt) system messages with
  | error e =>
      rw [hclient] at hmap
      cases hmap
  | ok r =>
      rw [hclient] at hmap
      exact congrArg Except.ok (Except.ok.inj hmap)

/-- Compiling and running fail in one way. -/
theorem RetryLoop.Fails.unique {attempt : Nat} {source : String} {err err' : PipelineError C.Value}
    (h : Fails w attempt source err) (h' : Fails w attempt source err') : err = err' := by
  rcases h with hcompile | ⟨program, hcompile, hexecute⟩ <;>
    rcases h' with hcompile' | ⟨program', hcompile', hexecute'⟩
  · exact Except.error.inj (hcompile.symm.trans hcompile')
  · exact absurd (hcompile.symm.trans hcompile') nofun
  · exact absurd (hcompile.symm.trans hcompile') nofun
  · obtain rfl := Except.ok.inj (hcompile.symm.trans hcompile')
    exact Except.error.inj (hexecute.symm.trans hexecute')

/-- **A history is determined by its length.** By induction on it: the conversation so far
determines the next response, and that the error. -/
theorem RetryLoop.History.unique {xs : List (Exchange C)} (hx : History w xs) :
    ∀ {ys : List (Exchange C)}, History w ys → xs.length = ys.length → xs = ys := by
  induction hx with
  | start =>
      intro ys _ hlength
      exact (List.eq_nil_of_length_eq_zero hlength.symm).symm
  | @failed xs x before generated fails ih =>
      intro ys hy hlength
      cases hy with
      | start => simp at hlength
      | @failed ys y before' generated' fails' =>
          have hlength' : xs.length = ys.length := by simpa using hlength
          obtain rfl := ih before' hlength'
          have hresponse : x.response = y.response :=
            Except.ok.inj (generated.symm.trans generated')
          rw [← hresponse] at fails'
          have herror : x.error = y.error := Fails.unique fails fails'
          rcases x with ⟨response, err⟩
          rcases y with ⟨response', err'⟩
          obtain rfl : response = response' := hresponse
          obtain rfl : err = err' := herror
          rfl

/-- A history without its last exchange. -/
theorem RetryLoop.History.split {ys : List (Exchange C)} {k : Nat} (h : History w ys)
    (hlength : ys.length = k + 1) : ∃ xs x, ys = xs ++ [x] ∧ xs.length = k ∧ History w xs ∧
      w.generate (k + 1) (conversation w xs) = .ok x.response ∧
      Fails w (k + 1) (stripCodeFences x.response.text) x.error := by
  cases h with
  | start => cases hlength
  | @failed xs x before generated fails =>
      have hxs : xs.length = k := by simpa using hlength
      rw [hxs] at generated fails
      exact ⟨xs, x, rfl, hxs, before, generated, fails⟩

/-- Each call of a run gets the conversation after a history. -/
theorem retryMain_history (hcount : w.maxRetries + 1 < 2 ^ w.target.bits) :
    (retryMain w).1.length ≤ w.maxRetries + 1 ∧
      ∀ k messages, (retryMain w).1[k]? = some messages →
        ∃ xs, History w xs ∧ xs.length = k ∧ messages = conversation w xs := by
  have hmain : retryMain w = retryLoop w (w.maxRetries + 1) 1 (conversation w []) ⟨0, 0⟩ := by
    rw [retryMain, usizeAdd_ok hcount]
    rfl
  have hspec := retryLoop_spec w (w.maxRetries + 1) [] ⟨0, 0⟩ .start
    ⟨isTotal_zero _, isTotal_zero _⟩ (Nat.zero_add _) (Nat.succ_pos _)
  rw [List.length_nil, Nat.zero_add, ← hmain] at hspec
  refine ⟨hspec.bounded, ?_⟩
  intro k messages hk
  obtain ⟨xs, hxs, hlength, hmessages⟩ := hspec.history k messages hk
  exact ⟨xs, hxs, by simpa using hlength, hmessages⟩

variable (w api client system) in
/-- **How the requests of a run grow**: the first one holds the system prompt and the task, and
each further one holds what was sent before, the text of the answer to that, and what went wrong
with its program. -/
structure RequestsGrow (requests : List ApiRequest) : Prop where
  bounded : requests.length ≤ w.maxRetries + 1
  first : ∀ r, requests[0]? = some r →
    r.body.conversation = [⟨"system", system⟩, ⟨"user", w.task⟩]
  next : ∀ k r r', requests[k]? = some r → requests[k + 1]? = some r' → ∃ response err,
    Answers client (api (k + 1) r) response ∧
    Fails w (k + 1) (stripCodeFences response.text) err ∧
    r'.body.conversation = r.body.conversation ++
      [⟨"assistant", response.text⟩,
        ⟨"user", formatErrorForRetry (stripCodeFences response.text) err⟩]

/-- A request and the history behind it. -/
theorem runRequests_history (hcount : w.maxRetries + 1 < 2 ^ w.target.bits) :
    (runRequests w api client system).length ≤ w.maxRetries + 1 ∧
      ∀ k r, (runRequests w api client system)[k]? = some r → ∃ xs,
        History (w.over api client system) xs ∧ xs.length = k ∧
          r = client.request system (conversation (w.over api client system) xs) := by
  obtain ⟨hbounded, hhistory⟩ := retryMain_history (w := w.over api client system) hcount
  refine ⟨by rw [runRequests, List.length_map]; exact hbounded, ?_⟩
  intro k r hr
  rw [runRequests, List.getElem?_map, Option.map_eq_some_iff] at hr
  obtain ⟨messages, hmessages, rfl⟩ := hr
  obtain ⟨xs, hxs, hlength, rfl⟩ := hhistory k messages hmessages
  exact ⟨xs, hxs, hlength, rfl⟩

/-- Two requests in a row: what lies between them. -/
theorem runRequests_next (hcount : w.maxRetries + 1 < 2 ^ w.target.bits) {k : Nat}
    {r r' : ApiRequest} (hr : (runRequests w api client system)[k]? = some r)
    (hr' : (runRequests w api client system)[k + 1]? = some r') :
    ∃ (xs : List (Exchange C)) (x : Exchange C), xs.length = k ∧
      r = client.request system (conversation (w.over api client system) xs) ∧
      (w.over api client system).generate (k + 1) (conversation (w.over api client system) xs)
        = .ok x.response ∧
      Fails (w.over api client system) (k + 1) (stripCodeFences x.response.text) x.error ∧
      r'.body.conversation = r.body.conversation ++
        retryMessages x.response.text x.error := by
  obtain ⟨xs, hxs, hlength, rfl⟩ := (runRequests_history hcount).2 k r hr
  obtain ⟨ys, hys, hlength', rfl⟩ := (runRequests_history hcount).2 (k + 1) r' hr'
  obtain ⟨xs', x, rfl, hxs', hbefore, hgenerated, hfails⟩ := hys.split hlength'
  obtain rfl := hxs.unique hbefore (hlength.trans hxs'.symm)
  refine ⟨xs, x, hlength, rfl, hgenerated, hfails, ?_⟩
  rw [client.request_conversation, client.request_conversation, conversation_concat]
  rfl

/-- **The requests of every run grow**, whichever the provider and whatever it answers. -/
theorem run_requests_grow (w : Session C) (api : Nat → Api) (client : LlmClient)
    (system : String) (hcount : w.maxRetries + 1 < 2 ^ w.target.bits) :
    RequestsGrow w api client system (runRequests w api client system) := by
  refine ⟨(runRequests_history hcount).1, ?_, ?_⟩
  · intro r hr
    obtain ⟨xs, -, hlength, rfl⟩ := (runRequests_history hcount).2 0 r hr
    obtain rfl := List.eq_nil_of_length_eq_zero hlength
    exact client.request_conversation system _
  · intro k r r' hr hr'
    obtain ⟨xs, x, -, rfl, hgenerated, hfails, hnext⟩ := runRequests_next hcount hr hr'
    exact ⟨x.response, x.error, LlmClient.generate_ok (over_generate hgenerated), hfails, hnext⟩

/-- A provider whose model forgets a summand at first, and which sends its text in two blocks. -/
def forgetfulApi (attempt : Nat) : Api := fun _ => .ok
  { status := 200
    statusText := "200 OK"
    text := .error ⟨"already read", []⟩
    anthropic := .ok (if attempt = 1 then ⟨["return", " 1 +"], some (120, 10)⟩
      else ⟨["```lua\nreturn 1", " + 2\n```"], none⟩)
    ollama := .error ⟨"missing field", []⟩ }

/-- The default client of the command line. -/
def anthropicClient : LlmClient := ⟨.anthropic "sk-test", "claude-sonnet-4-6"⟩

theorem run_requests_grow_add :
    (runRequests (addSession true ⟨0, 0⟩ ⟨0, 0⟩) forgetfulApi anthropicClient "Write Lua.").length
      = 2 ∧
    RequestsGrow (addSession true ⟨0, 0⟩ ⟨0, 0⟩) forgetfulApi anthropicClient "Write Lua."
      (runRequests (addSession true ⟨0, 0⟩ ⟨0, 0⟩) forgetfulApi anthropicClient "Write Lua.") :=
  ⟨by decide +kernel, run_requests_grow _ _ _ _ (by decide)⟩

end Runs

end ProvenoOracle
