import ProvenoOracle.Effect.Interact
import ProvenoOracle.Prove.Client

/-! # The live host

`tools.rs`: `LiveHost` answers the tool calls of a Lua program. Two tools keep a map
(`Tools/KeyValue.lean`), two send HTTP requests (`Tools/HttpBody.lean`), `llm_query` asks the
language model, and `time_now` reads the clock. The program sees the answers and nothing else, and
chooses its next call by them.

`live_host_sends` says what is handed to the HTTP client during the run of any program, and what is
left in the map: one request for each call that asks for one, in order, and nothing for the other
calls. `live_host_hides_key` says that no program can find out the API key, and that the key goes
into requests to the provider only.
-/

set_option autoImplicit false

namespace ProvenoOracle

open Effect Codec

/-! ## The outside -/

/-- A request that is handed to the HTTP client. -/
inductive Outgoing where
  | get (url : String)
  | post (url : String) (headers : List (String × String)) (body : String)
  | llm (request : ApiRequest)

/-- What the outside answers during a call. -/
structure Outside where
  http : HttpClient
  api : Api
  /-- The seconds since the epoch, or the text of the error. -/
  clock : Except String UInt64

/-- A host, and what it has sent. -/
structure LiveState where
  host : LiveHost
  sent : List Outgoing

/-- The start of a run: `LiveHost::new`. -/
def LiveState.start : LiveState := ⟨LiveHost.new, []⟩

/-- How a call ends that does not return a table. -/
inductive ToolStop where
  | failed (msg : String)
  | panicked (p : Panic)

/-- What a tool computes. -/
abbrev Live (α : Type) : Type := Fallible LiveState ToolStop α

/-- Send a request. -/
def sendOut (q : Outgoing) : Live Unit := Fallible.modify fun s => { s with sent := s.sent ++ [q] }

/-- The end of a tool that may also panic. -/
def answered {α : Type} (x : Run (Except String α)) : Live α :=
  match x with
  | .ok (.ok a) => pure a
  | .ok (.error e) => Fallible.fail (.failed e)
  | .error p => Fallible.fail (.panicked p)

section Tools

variable (L : LuaCrate) (integer : Int → L.Value)

/-! ## The tools -/

/-- `get_str`, with the `?` behind it. -/
def arg (args : L.Table) (key : String) : Live String :=
  Fallible.ofExcept ToolStop.failed (getStr L args key)

/-- `get_opt_str` -/
def getOptStr (args : L.Table) (key : String) : Option String :=
  match L.get args (strBytes key) with
  | some value => (L.asString value).map fromUtf8Lossy
  | none => none

/-- `tool_http_get` -/
def liveHttpGet (o : Outside) (args : L.Table) : Live L.Table := do
  let url ← arg L args "url"
  sendOut (.get url)
  answered (httpAnswer L integer "http_get failed" "http_get: failed to read body"
    (o.http.get url))

/-- `tool_http_post` -/
def liveHttpPost (o : Outside) (args : L.Table) : Live L.Table := do
  let url ← arg L args "url"
  let body ← arg L args "body"
  let headers := [("content-type", "application/json")]
  sendOut (.post url headers body)
  answered (httpAnswer L integer "http_post failed" "http_post: failed to read body"
    (o.http.post url headers body))

/-- `tool_kv_get` -/
def liveKvGet (args : L.Table) : Live L.Table := fun s =>
  match toolKvGet L s.host args with
  | .ok table => (.ok table, s)
  | .error e => (.error (.failed e), s)

/-- `tool_kv_set` -/
def liveKvSet (args : L.Table) : Live L.Table := fun s =>
  match toolKvSet L s.host args with
  | (.ok table, host) => (.ok table, { s with host := host })
  | (.error e, host) => (.error (.failed e), { s with host := host })

/-- The system prompt of `llm_query`. -/
def querySystem : String := "You are a helpful assistant. Be concise."

/-- The content of the message: the prompt, and the context if there is one. -/
def queryContent (prompt context : String) : String :=
  if context.isEmpty then prompt else s!"{prompt}\n\nContext:\n{context}"

/-- `tool_llm_query` -/
def liveLlmQuery (llm : LlmClient) (o : Outside) (args : L.Table) : Live L.Table := do
  let prompt ← arg L args "prompt"
  let context := (getOptStr L args "context").getD ""
  let messages : List Message := [⟨"user", queryContent prompt context⟩]
  sendOut (.llm (llm.request querySystem messages))
  let response ← Fallible.ofExcept (fun e => ToolStop.failed s!"llm_query failed: {e.text}")
    (llm.generate o.api querySystem messages)
  return L.rawset L.empty (strBytes "response") (L.string (strBytes response.text))

/-- `tool_time_now` -/
def liveTimeNow (o : Outside) : Live L.Table := do
  let ts ← Fallible.ofExcept (fun e => ToolStop.failed s!"time_now: {e}") o.clock
  -- `as_secs() as i64`
  return L.rawset L.empty (strBytes "timestamp") (integer ts.toInt64.toInt)

/-- `call_tool` -/
def liveCall (llm : LlmClient) (o : Outside) (name : String) (args : L.Table) : Live L.Table :=
  match name with
  | "http_get" => liveHttpGet L integer o args
  | "http_post" => liveHttpPost L integer o args
  | "kv_get" => liveKvGet L args
  | "kv_set" => liveKvSet L args
  | "llm_query" => liveLlmQuery L llm o args
  | "time_now" => liveTimeNow L integer o
  | other => Fallible.fail (.failed s!"unknown tool '{other}'")

/-- The host as a server: a program sees errors, and a panic ends the run. -/
def liveServe (llm : LlmClient) (world : Nat → Outside) :
    Serve LiveState (String × L.Table) (Except String L.Table) := fun i s q =>
  match liveCall L integer llm (world i) q.1 q.2 s with
  | (.ok table, s') => (some (.ok table), s')
  | (.error (.failed e), s') => (some (.error e), s')
  | (.error (.panicked _), s') => (none, s')

/-- A program, as far as its tool calls go. -/
abbrev ToolProgram : Type := Client (String × L.Table) (Except String L.Table)

/-- The first `n` tool calls of a program, in a world that may change between them. -/
def liveRun (llm : LlmClient) (world : Nat → Outside) (program : ToolProgram L) (n : Nat) :
    List ((String × L.Table) × Option (Except String L.Table)) × LiveState :=
  interact (liveServe L integer llm world) program n LiveState.start

/-! ## What a call asks for -/

/-- The request that a call asks for, if its arguments are there. -/
def outgoing (llm : LlmClient) (q : String × L.Table) : Option Outgoing :=
  match q.1 with
  | "http_get" => (stringArg L q.2 "url").map fun url => .get (fromUtf8Lossy url)
  | "http_post" =>
      (stringArg L q.2 "url").bind fun url => (stringArg L q.2 "body").map fun body =>
        .post (fromUtf8Lossy url) [("content-type", "application/json")] (fromUtf8Lossy body)
  | "llm_query" => (stringArg L q.2 "prompt").map fun prompt =>
      .llm (llm.request querySystem [⟨"user", queryContent (fromUtf8Lossy prompt)
        (((stringArg L q.2 "context").map fromUtf8Lossy).getD "")⟩])
  | _ => none

/-- The call as a request to the key-value tool. -/
def kvRequest (q : String × L.Table) : Request L := ⟨q.1, q.2, .error ""⟩

variable {L integer}

/-! ## One call -/

theorem toolName_cases (name : String) :
    name = "http_get" ∨ name = "http_post" ∨ name = "kv_get" ∨ name = "kv_set" ∨
      name = "llm_query" ∨ name = "time_now" ∨
      (name ≠ "http_get" ∧ name ≠ "http_post" ∧ name ≠ "kv_get" ∧ name ≠ "kv_set" ∧
        name ≠ "llm_query" ∧ name ≠ "time_now") := by
  tauto

theorem liveCall_unknown (llm : LlmClient) (o : Outside) {name : String} (args : L.Table)
    (h : name ≠ "http_get" ∧ name ≠ "http_post" ∧ name ≠ "kv_get" ∧ name ≠ "kv_set" ∧
      name ≠ "llm_query" ∧ name ≠ "time_now") :
    liveCall L integer llm o name args = Fallible.fail (.failed s!"unknown tool '{name}'") := by
  unfold liveCall
  split <;> simp_all

theorem outgoing_unknown (llm : LlmClient) {name : String} (args : L.Table)
    (h : name ≠ "http_get" ∧ name ≠ "http_post" ∧ name ≠ "llm_query") :
    outgoing L llm (name, args) = none := by
  unfold outgoing
  split <;> simp_all

/-- An argument is the string under its key, decoded, or the tool stops. -/
theorem arg_apply (args : L.Table) (key : String) (s : LiveState) :
    (∃ b, stringArg L args key = some b ∧ arg L args key s = (.ok (fromUtf8Lossy b), s)) ∨
      (stringArg L args key = none ∧ ∃ e, arg L args key s = (.error (.failed e), s)) := by
  unfold arg
  cases h : stringArg L args key with
  | some b =>
      rw [getStr_eq args key h]
      exact Or.inl ⟨b, rfl, rfl⟩
  | none =>
      obtain ⟨e, he⟩ := getStr_error h
      rw [he]
      exact Or.inr ⟨rfl, e, rfl⟩

theorem getOptStr_eq (args : L.Table) (key : String) :
    getOptStr L args key = (stringArg L args key).map fromUtf8Lossy := by
  unfold getOptStr stringArg
  cases L.get args (strBytes key) <;> rfl

theorem answered_state {α : Type} (x : Run (Except String α)) (s : LiveState) :
    (answered x s).2 = s := by
  rcases x with p | e | a <;> rfl

/-- The state after sending. -/
def LiveState.send (s : LiveState) (q : Outgoing) : LiveState := { s with sent := s.sent ++ [q] }

theorem sendOut_bind {α : Type} (q : Outgoing) (f : Unit → Live α) (s : LiveState) :
    (sendOut q >>= f) s = f () (s.send q) :=
  Fallible.bind_ok rfl

variable (llm : LlmClient) (o : Outside) (args : L.Table) (s : LiveState)

theorem liveHttpGet_state : (liveHttpGet L integer o args s).2
    = { s with sent := s.sent ++ (outgoing L llm ("http_get", args)).toList } := by
  have hout : outgoing L llm ("http_get", args)
      = (stringArg L args "url").map fun url => .get (fromUtf8Lossy url) := rfl
  rw [liveHttpGet, hout]
  rcases arg_apply args "url" s with ⟨url, hurl, harg⟩ | ⟨hurl, e, harg⟩
  · rw [Fallible.bind_ok harg, sendOut_bind, answered_state, hurl]
    rfl
  · rw [Fallible.bind_error harg, hurl]
    simp

theorem liveHttpPost_state : (liveHttpPost L integer o args s).2
    = { s with sent := s.sent ++ (outgoing L llm ("http_post", args)).toList } := by
  have hout : outgoing L llm ("http_post", args)
      = (stringArg L args "url").bind fun url => (stringArg L args "body").map fun body =>
        .post (fromUtf8Lossy url) [("content-type", "application/json")] (fromUtf8Lossy body) := rfl
  rw [liveHttpPost, hout]
  rcases arg_apply args "url" s with ⟨url, hurl, harg⟩ | ⟨hurl, e, harg⟩
  · rcases arg_apply args "body" s with ⟨body, hbody, harg'⟩ | ⟨hbody, e, harg'⟩
    · rw [Fallible.bind_ok harg, Fallible.bind_ok harg', sendOut_bind, answered_state, hurl, hbody]
      rfl
    · rw [Fallible.bind_ok harg, Fallible.bind_error harg', hurl, hbody]
      simp
  · rw [Fallible.bind_error harg, hurl]
    simp

theorem liveLlmQuery_state : (liveLlmQuery L llm o args s).2
    = { s with sent := s.sent ++ (outgoing L llm ("llm_query", args)).toList } := by
  have hout : outgoing L llm ("llm_query", args) = (stringArg L args "prompt").map fun prompt =>
      .llm (llm.request querySystem [⟨"user", queryContent (fromUtf8Lossy prompt)
        (((stringArg L args "context").map fromUtf8Lossy).getD "")⟩]) := rfl
  rw [liveLlmQuery, hout, getOptStr_eq]
  rcases arg_apply args "prompt" s with ⟨prompt, hprompt, harg⟩ | ⟨hprompt, e, harg⟩
  · rw [Fallible.bind_ok harg, sendOut_bind, Fallible.bind_readOnly_state
      fun _ => Fallible.readOnly_pure _, Fallible.readOnly_ofExcept, hprompt]
    rfl
  · rw [Fallible.bind_error harg, hprompt]
    simp

theorem liveTimeNow_state : (liveTimeNow L integer o s).2 = s := by
  rw [liveTimeNow, Fallible.bind_readOnly_state fun _ => Fallible.readOnly_pure _,
    Fallible.readOnly_ofExcept]

theorem liveKvGet_state : (liveKvGet L args s).2 = s := by
  unfold liveKvGet
  cases toolKvGet L s.host args <;> rfl

theorem liveKvSet_state :
    (liveKvSet L args s).2 = { s with host := (toolKvSet L s.host args).2 } := by
  unfold liveKvSet
  rcases toolKvSet L s.host args with ⟨e | table, host⟩ <;> rfl

/-- **What a call does**: the map changes as the key-value tool says, and the request that the call
asks for is sent, once. -/
theorem liveCall_state (q : String × L.Table) : (liveCall L integer llm o q.1 q.2 s).2
    = ⟨(callTool L s.host (kvRequest L q)).2, s.sent ++ (outgoing L llm q).toList⟩ := by
  obtain ⟨name, args⟩ := q
  rcases toolName_cases name with rfl | rfl | rfl | rfl | rfl | rfl | h
  · exact liveHttpGet_state llm o args s
  · exact liveHttpPost_state llm o args s
  · refine (liveKvGet_state args s).trans ?_
    show s = ⟨s.host, s.sent ++ []⟩
    rw [List.append_nil]
  · refine (liveKvSet_state args s).trans ?_
    show _ = LiveState.mk (toolKvSet L s.host args).2 (s.sent ++ [])
    rw [List.append_nil]
  · exact liveLlmQuery_state llm o args s
  · refine (liveTimeNow_state o s).trans ?_
    show s = ⟨s.host, s.sent ++ []⟩
    rw [List.append_nil]
  · rw [liveCall_unknown llm o args h, outgoing_unknown llm args ⟨h.1, h.2.1, h.2.2.2.2.1⟩,
      callTool_of_ne s.host (kvRequest L (name, args)) h.2.2.2.1]
    show s = ⟨s.host, s.sent ++ []⟩
    rw [List.append_nil]

/-- The state of the server after a query is that after the call. -/
theorem liveServe_state (world : Nat → Outside) (i : Nat) (q : String × L.Table) :
    (liveServe L integer llm world i s q).2
      = ⟨(callTool L s.host (kvRequest L q)).2, s.sent ++ (outgoing L llm q).toList⟩ := by
  have hcall : (liveCall L integer llm (world i) q.1 q.2 s).2 = _ :=
    liveCall_state llm (world i) s q
  rw [← hcall, liveServe]
  rcases liveCall L integer llm (world i) q.1 q.2 s with ⟨(e | p) | table, s'⟩ <;> rfl

/-! ## A run of calls -/

section Run

variable (world : Nat → Outside) (program : ToolProgram L) (n : Nat)

/-- The calls that a program makes. -/
def callsOf (run : List ((String × L.Table) × Option (Except String L.Table)) × LiveState) :
    List (String × L.Table) := run.1.map Prod.fst

theorem liveRun_sent : (liveRun L integer llm world program n).2.sent
    = (callsOf (liveRun L integer llm world program n)).filterMap (outgoing L llm) := by
  have hadds : ∀ i (s : LiveState) q, (liveServe L integer llm world i s q).2.sent
      = s.sent ++ (outgoing L llm q).toList := by
    intro i s q
    rw [liveServe_state]
  have hlog := @interact_log _ _ _ _ program _ _ _ hadds n LiveState.start
  rw [callsOf, List.filterMap_map, List.filterMap_eq_flatMap_toList]
  exact hlog

theorem liveRun_host : (liveRun L integer llm world program n).2.host
    = hostAfter L ((callsOf (liveRun L integer llm world program n)).map (kvRequest L)) := by
  have hchange : ∀ i (s : LiveState) q, (liveServe L integer llm world i s q).2.host
      = (fun host q => (callTool L host (kvRequest L q)).2) s.host q := by
    intro i s q
    rw [liveServe_state]
  rw [callsOf, hostAfter, List.foldl_map]
  exact @interact_foldl _ _ _ _ program _ _ _ hchange n LiveState.start

/-- **What is sent**: whatever the program and the outside, the host has sent one request for each
call that asks for one, in the order of the calls, and no other; and its map is the one that the
key-value calls alone lead to. -/
theorem live_host_sends :
    (liveRun L integer llm world program n).2.sent
        = (callsOf (liveRun L integer llm world program n)).filterMap (outgoing L llm) ∧
      (liveRun L integer llm world program n).2.host
        = hostAfter L
          ((callsOf (liveRun L integer llm world program n)).map (kvRequest L)) :=
  ⟨liveRun_sent llm world program n, liveRun_host llm world program n⟩

variable {llm world program n}

/-- **What `kv_get` reads**: at any moment of any run, the value of the last `kv_set` of its key
before, whatever else the program has called in between; keys and values are decoded on their way
in. -/
theorem live_kv_get_reads (hL : L.TableLaws) {i : Nat} {args : L.Table}
    {answer : Option (Except String L.Table)} {key : Bytes}
    (hcall : (liveRun L integer llm world program n).1[i]? = some (("kv_get", args), answer))
    (hkey : stringArg L args "key" = some key) :
    ∃ table, answer = some (.ok table) ∧ L.get table (strBytes "value")
      = (lastWrite ((writesOf L (((callsOf (liveRun L integer llm world program n)).take i).map
          (kvRequest L))).map (Prod.map fromUtf8Lossy fromUtf8Lossy)) (fromUtf8Lossy key)).map
        fun value => L.string (strBytes value) := by
  obtain ⟨hfront, hanswer, -⟩ := interact_at hcall
  have hcalls : callsOf (liveRun L integer llm world program i)
      = (callsOf (liveRun L integer llm world program n)).take i := by
    rw [callsOf, callsOf, ← List.map_take]
    exact congrArg _ hfront
  have hhost : (liveRun L integer llm world program i).2.host = _ :=
    liveRun_host llm world program i
  rw [hcalls] at hhost
  obtain ⟨table, htable, hvalue⟩ :=
    kvGet_response hL (liveRun L integer llm world program i).2.host (.error "") hkey
  have hget : toolKvGet L (liveRun L integer llm world program i).2.host args = .ok table := htable
  refine ⟨table, ?_, ?_⟩
  · rw [← hanswer]
    show (liveServe L integer llm world i (liveRun L integer llm world program i).2
      ("kv_get", args)).1 = _
    have hlive : liveCall L integer llm (world i) "kv_get" args
        (liveRun L integer llm world program i).2
        = (.ok table, (liveRun L integer llm world program i).2) := by
      show liveKvGet L args _ = _
      rw [liveKvGet, hget]
    rw [liveServe, hlive]
  · rw [hvalue, LiveHost.answer, hhost, hostAfter_kv, Option.map_map]
    rfl

end Run

/-! ## The API key -/

section Key

/-- A request without its API key. -/
def Outgoing.withoutKey : Outgoing → Outgoing
  | .llm r => .llm { r with headers := r.headers.filter fun h => h.1 ≠ "x-api-key" }
  | q => q

/-- Two worlds that differ in what their provider is asked with: each answers requests with its own
key, and they answer alike. -/
def AnswerAlike (model key key' : String) (o o' : Outside) : Prop :=
  o.http = o'.http ∧ o.clock = o'.clock ∧ ∀ system messages,
    o.api (anthropicRequest model key system messages)
      = o'.api (anthropicRequest model key' system messages)

variable {model key key' : String} {o o' : Outside}

theorem generate_alike (h : AnswerAlike model key key' o o') (system : String)
    (messages : List Message) :
    (⟨.anthropic key, model⟩ : LlmClient).generate o.api system messages
      = (⟨.anthropic key', model⟩ : LlmClient).generate o'.api system messages := by
  show readResponse (o.api _) _ = readResponse (o'.api _) _
  rw [h.2.2]

/-- The answer of a call does not depend on the key, nor on what was sent before. -/
theorem liveCall_alike (h : AnswerAlike model key key' o o') (q : String × L.Table)
    {s t : LiveState} (hhost : s.host = t.host) :
    (liveCall L integer ⟨.anthropic key, model⟩ o q.1 q.2 s).1
      = (liveCall L integer ⟨.anthropic key', model⟩ o' q.1 q.2 t).1 := by
  obtain ⟨name, args⟩ := q
  rcases toolName_cases name with rfl | rfl | rfl | rfl | rfl | rfl | hname
  · show (liveHttpGet L integer o args s).1 = (liveHttpGet L integer o' args t).1
    unfold liveHttpGet arg
    rw [h.1]
    cases getStr L args "url" with
    | error e => rfl
    | ok url =>
        show (answered _ _).1 = (answered _ _).1
        rcases httpAnswer L integer _ _ (o'.http.get url) with p | e | table <;> rfl
  · show (liveHttpPost L integer o args s).1 = (liveHttpPost L integer o' args t).1
    unfold liveHttpPost arg
    rw [h.1]
    cases getStr L args "url" with
    | error e => rfl
    | ok url =>
        cases getStr L args "body" with
        | error e => rfl
        | ok body =>
            show (answered _ _).1 = (answered _ _).1
            rcases httpAnswer L integer _ _ (o'.http.post url _ body) with p | e | table <;> rfl
  · show (liveKvGet L args s).1 = (liveKvGet L args t).1
    unfold liveKvGet
    rw [hhost]
    cases toolKvGet L t.host args <;> rfl
  · show (liveKvSet L args s).1 = (liveKvSet L args t).1
    unfold liveKvSet
    rw [hhost]
    rcases toolKvSet L t.host args with ⟨e | table, host⟩ <;> rfl
  · show (liveLlmQuery L _ o args s).1 = (liveLlmQuery L _ o' args t).1
    unfold liveLlmQuery arg
    cases getStr L args "prompt" with
    | error e => rfl
    | ok prompt =>
        show ((Fallible.ofExcept _ (LlmClient.generate _ o.api _ _) >>= _) (s.send _)).1
          = ((Fallible.ofExcept _ (LlmClient.generate _ o'.api _ _) >>= _) (t.send _)).1
        rw [generate_alike h]
        cases LlmClient.generate _ o'.api _ _ <;> rfl
  · show (liveTimeNow L integer o s).1 = (liveTimeNow L integer o' t).1
    unfold liveTimeNow
    rw [h.2.1]
    cases o'.clock <;> rfl
  · rw [liveCall_unknown _ o args hname, liveCall_unknown _ o' args hname]
    rfl

theorem liveServe_alike {world world' : Nat → Outside}
    (h : ∀ i, AnswerAlike model key key' (world i) (world' i)) (i : Nat) (s t : LiveState)
    (q : String × L.Table) (hhost : s.host = t.host) :
    (liveServe L integer ⟨.anthropic key, model⟩ world i s q).1
        = (liveServe L integer ⟨.anthropic key', model⟩ world' i t q).1 ∧
      (liveServe L integer ⟨.anthropic key, model⟩ world i s q).2.host
        = (liveServe L integer ⟨.anthropic key', model⟩ world' i t q).2.host := by
  constructor
  · have hcall : (liveCall L integer ⟨.anthropic key, model⟩ (world i) q.1 q.2 s).1 = _ :=
      liveCall_alike (h i) q hhost
    unfold liveServe
    rcases hs : liveCall L integer ⟨.anthropic key, model⟩ (world i) q.1 q.2 s with ⟨r, s'⟩
    rcases ht : liveCall L integer ⟨.anthropic key', model⟩ (world' i) q.1 q.2 t with ⟨r', t'⟩
    rw [hs, ht] at hcall
    obtain rfl : r = r' := hcall
    rcases r with (e | p) | table <;> rfl
  · rw [liveServe_state, liveServe_state]
    show (callTool L s.host _).2 = (callTool L t.host _).2
    rw [hhost]

/-- The requests of a call differ in the key at most. -/
theorem outgoing_withoutKey (q : String × L.Table) :
    (outgoing L ⟨.anthropic key, model⟩ q).map Outgoing.withoutKey
      = (outgoing L ⟨.anthropic key', model⟩ q).map Outgoing.withoutKey := by
  obtain ⟨name, args⟩ := q
  unfold outgoing
  split
  · rfl
  · rfl
  · rw [Option.map_map, Option.map_map]
    rfl
  · rfl

/-- Only requests to the provider carry the key. -/
theorem outgoing_llm_url {q : String × L.Table} {r : ApiRequest}
    (h : outgoing L ⟨.anthropic key, model⟩ q = some (.llm r)) :
    r.url = "https://api.anthropic.com/v1/messages" := by
  obtain ⟨name, args⟩ := q
  unfold outgoing at h
  split at h
  · simp at h
  · simp [Option.bind_eq_some_iff] at h
  · obtain ⟨prompt, -, hr⟩ := Option.map_eq_some_iff.mp h
    cases hr
    rfl
  · cases h

/-- **The API key is hidden**: with another key, and a provider that answers that key alike, any
program makes the same calls and gets the same answers, and what is sent is the same but for the
key, which goes to the provider only. -/
theorem live_host_hides_key {world world' : Nat → Outside}
    (h : ∀ i, AnswerAlike model key key' (world i) (world' i)) (program : ToolProgram L)
    (n : Nat) :
    (liveRun L integer ⟨.anthropic key, model⟩ world program n).1
        = (liveRun L integer ⟨.anthropic key', model⟩ world' program n).1 ∧
      (liveRun L integer ⟨.anthropic key, model⟩ world program n).2.sent.map Outgoing.withoutKey
        = (liveRun L integer ⟨.anthropic key', model⟩ world' program n).2.sent.map
          Outgoing.withoutKey ∧
      ∀ r, .llm r ∈ (liveRun L integer ⟨.anthropic key, model⟩ world program n).2.sent →
        r.url = "https://api.anthropic.com/v1/messages" := by
  obtain ⟨hcalls, -⟩ := interact_congr (R := fun s t => LiveState.host s = LiveState.host t)
    (liveServe_alike h) n (rfl : LiveState.start.host = LiveState.start.host)
  have hsame : (liveRun L integer ⟨.anthropic key, model⟩ world program n).1
      = (liveRun L integer ⟨.anthropic key', model⟩ world' program n).1 := hcalls
  refine ⟨hsame, ?_, ?_⟩
  · rw [liveRun_sent, liveRun_sent, callsOf, callsOf, hsame, List.map_filterMap, List.map_filterMap]
    congr 1
    funext q
    exact outgoing_withoutKey q
  · intro r hr
    rw [liveRun_sent] at hr
    obtain ⟨q, -, hq⟩ := List.mem_filterMap.mp hr
    exact outgoing_llm_url hq

end Key

end Tools

/-! ## A program that asks and stores -/

/-- A provider that says hello to any key. -/
def helloApi : Api := fun _ => .ok
  { status := 200
    statusText := "200 OK"
    text := .error ⟨"already read", []⟩
    anthropic := .ok ⟨["hello"], none⟩
    ollama := .error ⟨"missing field", []⟩ }

/-- An outside in which nothing fails. -/
def helloOutside : Outside := ⟨oneResponse ⟨200, .ok "a"⟩, helloApi, .ok 1709654400⟩

/-- A table with two strings. -/
def pairArgs (k v k' v' : String) : httpLua.Table :=
  httpLua.rawset (httpLua.rawset httpLua.empty (strBytes k) (.string (strBytes v))) (strBytes k')
    (.string (strBytes v'))

/-- A program that asks the model, stores something, fetches a page and reads the store. -/
def askingProgram : ToolProgram httpLua := fun answers =>
  [("llm_query", pairArgs "prompt" "hi" "context" ""), ("kv_set", pairArgs "key" "k" "value" "v"),
    ("http_get", pairArgs "url" "http://a" "x" ""),
    ("kv_get", pairArgs "key" "k" "x" "")][answers.length]?

/-- Its first four calls. -/
def askingRun :
    List ((String × httpLua.Table) × Option (Except String httpLua.Table)) × LiveState :=
  liveRun httpLua .integer anthropicClient (fun _ => helloOutside) askingProgram 4

theorem live_kv_get_reads_asking : ∃ answer table,
    askingRun.1[3]? = some (("kv_get", pairArgs "key" "k" "x" ""), answer) ∧
      answer = some (.ok table) ∧ httpLua.get table (strBytes "value")
        = (lastWrite ((writesOf httpLua (((callsOf askingRun).take 3).map
          (kvRequest httpLua))).map (Prod.map fromUtf8Lossy fromUtf8Lossy))
          (fromUtf8Lossy (strBytes "k"))).map fun value => httpLua.string (strBytes value) := by
  have hlength : askingRun.1.length = 4 := by decide +kernel
  obtain ⟨⟨q, answer⟩, hanswer⟩ : ∃ x, askingRun.1[3]? = some x :=
    ⟨_, List.getElem?_eq_getElem (by rw [hlength]; decide)⟩
  obtain ⟨-, -, seen, hseen, hq⟩ := interact_at hanswer
  obtain rfl : q = ("kv_get", pairArgs "key" "k" "x" "") := by
    simpa [askingProgram, hseen, eq_comm] using hq
  have hkey : stringArg httpLua (pairArgs "key" "k" "x" "") "key" = some (strBytes "k") := rfl
  obtain ⟨table, htable, hvalue⟩ := live_kv_get_reads httpLua_tableLaws hanswer hkey
  exact ⟨answer, table, hanswer, htable, hvalue⟩

theorem live_host_hides_key_asking :
    (liveRun httpLua .integer ⟨.anthropic "sk-one", "m"⟩ (fun _ => helloOutside) askingProgram 4).1
      = (liveRun httpLua .integer ⟨.anthropic "sk-two", "m"⟩ (fun _ => helloOutside)
        askingProgram 4).1 := by
  have halike : ∀ _ : Nat, AnswerAlike "m" "sk-one" "sk-two" helloOutside helloOutside :=
    fun _ => ⟨rfl, rfl, fun _ _ => rfl⟩
  exact (live_host_hides_key halike askingProgram 4).1

end ProvenoOracle
