import ProvenoOracle.Tools.KeyValue

/-! # The HTTP tools

`tools.rs`: `http_get` and `http_post` send a request for the Lua program and return the status
and the body of the response, cut to `MAX_HTTP_BODY` bytes. The cut is a slice of a Rust string,
`body[..MAX_HTTP_BODY]`, and such a slice panics when it falls inside a character. So a long body
is returned exactly when one of its characters ends at that byte: `http_body_truncated_iff`.
-/

set_option autoImplicit false

namespace ProvenoOracle

/-! ## The client -/

/-- `reqwest::Error`: its own text, and those of the errors behind it (`source()`). -/
structure ReqwestError where
  display : String
  sources : List String

/-- `reqwest::blocking::Response`: the status, and what reading the body as text gives. -/
structure HttpResponse where
  status : UInt16
  text : Except ReqwestError String

/-- `reqwest::blocking::Client`, as far as the tools use it. -/
structure HttpClient where
  /-- A GET request for the URL. -/
  get : String → Except ReqwestError HttpResponse
  /-- A POST request to the URL with the headers and the body. -/
  post : String → List (String × String) → String → Except ReqwestError HttpResponse

/-- `format_reqwest_error`: the text of the error, then of each error behind it. -/
def formatReqwestError (context : String) (e : ReqwestError) : String :=
  e.sources.foldl (fun msg cause => msg ++ ": " ++ cause) s!"{context}: {e.display}"

/-! ## The tools -/

/-- Maximum response body size for HTTP tools (1 MB). -/
def MAX_HTTP_BODY : Nat := 1024 * 1024

/-- The body that a tool returns for the body of the response. -/
def truncateBody (body : String) : Run String :=
  if (strBytes body).length > MAX_HTTP_BODY then strSliceTo body MAX_HTTP_BODY else .ok body

section Tools

variable (L : LuaCrate) (integer : Int → L.Value)

/-- `resp_table`: what the Lua program gets. -/
def respTable (status : UInt16) (body : String) : L.Table :=
  L.rawset (L.rawset L.empty (strBytes "status") (integer status.toNat)) (strBytes "body")
    (L.string (strBytes body))

/-- The part that both tools share: from what sending the request gave to the answer, with the
texts that an error begins with. -/
def httpAnswer (failed unread : String) (sent : Except ReqwestError HttpResponse) :
    Run (Except String L.Table) :=
  match sent with
  | .error e => .ok (.error (formatReqwestError failed e))
  | .ok resp =>
      match resp.text with
      | .error e => .ok (.error (formatReqwestError unread e))
      | .ok body => do
          let body ← truncateBody body
          return .ok (respTable L integer resp.status body)

/-- `tool_http_get` -/
def toolHttpGet (http : HttpClient) (args : L.Table) : Run (Except String L.Table) :=
  match getStr L args "url" with
  | .error e => .ok (.error e)
  | .ok url =>
      httpAnswer L integer "http_get failed" "http_get: failed to read body" (http.get url)

/-- `tool_http_post` -/
def toolHttpPost (http : HttpClient) (args : L.Table) : Run (Except String L.Table) :=
  match getStr L args "url" with
  | .error e => .ok (.error e)
  | .ok url =>
      match getStr L args "body" with
      | .error e => .ok (.error e)
      | .ok body =>
          httpAnswer L integer "http_post failed" "http_post: failed to read body"
            (http.post url [("content-type", "application/json")] body)

/-! ## What is asked for -/

/-- `body` is the longest part of the response, from its start, that is text and not too long. -/
structure TruncatedBody (response body : Bytes) : Prop where
  isPart : body <+: response
  isText : IsUtf8 body
  short : body.length ≤ MAX_HTTP_BODY
  whole : response.length ≤ MAX_HTTP_BODY → body = response
  longest : ∀ p, p <+: response → IsUtf8 p → p.length ≤ MAX_HTTP_BODY → p.length ≤ body.length

/-- The tool returns a table with the truncated body of the response. -/
def ReturnsTruncated (x : Run (Except String L.Table)) (response : String) : Prop :=
  ∃ table body, x = .ok (.ok table) ∧ L.get table (strBytes "body") = some (L.string body) ∧
    TruncatedBody (strBytes response) body

/-- Whatever response a request gets, both tools return its truncated body. -/
def TruncatesBodies (http : HttpClient) (resp : HttpResponse) (response : String) : Prop :=
  (∀ args url, stringArg L args "url" = some url → http.get (fromUtf8Lossy url) = .ok resp →
    ReturnsTruncated L (toolHttpGet L integer http args) response) ∧
  ∀ args url body, stringArg L args "url" = some url → stringArg L args "body" = some body →
    http.post (fromUtf8Lossy url) [("content-type", "application/json")] (fromUtf8Lossy body)
      = .ok resp →
    ReturnsTruncated L (toolHttpPost L integer http args) response

/-! ## The cut -/

theorem truncateBody_short {response : String}
    (h : (strBytes response).length ≤ MAX_HTTP_BODY) : truncateBody response = .ok response :=
  if_neg (by omega)

theorem truncateBody_long {response : String}
    (h : MAX_HTTP_BODY < (strBytes response).length) :
    truncateBody response = strSliceTo response MAX_HTTP_BODY := if_pos h

theorem truncatedBody_self {response : String}
    (h : (strBytes response).length ≤ MAX_HTTP_BODY) :
    TruncatedBody (strBytes response) (strBytes response) where
  isPart := List.prefix_refl _
  isText := ⟨response, rfl⟩
  short := h
  whole _ := rfl
  longest _ hp _ _ := hp.length_le

/-- What the slice returns is the truncated body. -/
theorem truncatedBody_of_strSliceTo {response body : String}
    (hlong : MAX_HTTP_BODY < (strBytes response).length)
    (h : strSliceTo response MAX_HTTP_BODY = .ok body) :
    TruncatedBody (strBytes response) (strBytes body) := by
  obtain ⟨hpart, hlength⟩ := strSliceTo_ok h
  constructor
  · exact hpart
  · exact ⟨body, rfl⟩
  · omega
  · intro hshort
    omega
  · intro p _ _ hp
    omega

/-- **When the cut is made**: the body is short, or a character ends where it is cut. -/
theorem truncateBody_iff (response : String) :
    (∃ body, truncateBody response = .ok body ∧
      TruncatedBody (strBytes response) (strBytes body)) ↔
      (strBytes response).length ≤ MAX_HTTP_BODY ∨ IsCharBoundary response MAX_HTTP_BODY := by
  by_cases hlength : (strBytes response).length ≤ MAX_HTTP_BODY
  · constructor
    · intro _
      exact Or.inl hlength
    · intro _
      exact ⟨response, truncateBody_short hlength, truncatedBody_self hlength⟩
  · have hlong : MAX_HTTP_BODY < (strBytes response).length := by omega
    -- a long body is sliced, and the slice returns at a boundary only
    rw [truncateBody_long hlong, ← strSliceTo_ok_iff]
    constructor
    · rintro ⟨body, hbody, -⟩
      exact Or.inr ⟨body, hbody⟩
    · rintro (hshort | ⟨body, hbody⟩)
      · exact absurd hshort hlength
      · exact ⟨body, hbody, truncatedBody_of_strSliceTo hlong hbody⟩

variable {L}

/-- Behind a response that could be read, the tools do what the cut does. -/
theorem httpAnswer_iff (hL : L.TableLaws) (failed unread : String) {resp : HttpResponse}
    {response : String} (htext : resp.text = .ok response) :
    ReturnsTruncated L (httpAnswer L integer failed unread (.ok resp)) response ↔
      (strBytes response).length ≤ MAX_HTTP_BODY ∨ IsCharBoundary response MAX_HTTP_BODY := by
  rw [← truncateBody_iff, httpAnswer, htext]
  constructor
  · rintro ⟨table, b, hanswer, hget, htruncated⟩
    obtain ⟨body, hbody, hok⟩ := Run.bind_eq_ok hanswer
    cases hok
    rw [respTable, hL.get_rawset_string, Option.some_inj] at hget
    rw [← string_injective hL hget] at htruncated
    exact ⟨body, hbody, htruncated⟩
  · rintro ⟨body, hbody, htruncated⟩
    refine ⟨respTable L integer resp.status body, strBytes body, ?_,
      hL.get_rawset_string _ _ _, htruncated⟩
    show (truncateBody response >>= _) = _
    rw [hbody]
    rfl

/-- **When the HTTP tools return the truncated body**: whatever the client and the arguments, the
response is short or one of its characters ends at `MAX_HTTP_BODY` bytes. -/
theorem http_body_truncated_iff (hL : L.TableLaws) (http : HttpClient) {resp : HttpResponse}
    {response : String} (htext : resp.text = .ok response) :
    (∀ args url, stringArg L args "url" = some url → http.get (fromUtf8Lossy url) = .ok resp →
      (ReturnsTruncated L (toolHttpGet L integer http args) response ↔
        (strBytes response).length ≤ MAX_HTTP_BODY ∨ IsCharBoundary response MAX_HTTP_BODY)) ∧
    ∀ args url body, stringArg L args "url" = some url → stringArg L args "body" = some body →
      http.post (fromUtf8Lossy url) [("content-type", "application/json")] (fromUtf8Lossy body)
        = .ok resp →
      (ReturnsTruncated L (toolHttpPost L integer http args) response ↔
        (strBytes response).length ≤ MAX_HTTP_BODY ∨ IsCharBoundary response MAX_HTTP_BODY) := by
  constructor
  · intro args url hurl hsent
    rw [toolHttpGet, getStr_eq args "url" hurl]
    show ReturnsTruncated L (httpAnswer L integer _ _ (http.get (fromUtf8Lossy url))) _ ↔ _
    rw [hsent]
    exact httpAnswer_iff integer hL _ _ htext
  · intro args url body hurl hbody hsent
    rw [toolHttpPost, getStr_eq args "url" hurl, getStr_eq args "body" hbody]
    show ReturnsTruncated L (httpAnswer L integer _ _ (http.post (fromUtf8Lossy url)
      [("content-type", "application/json")] (fromUtf8Lossy body))) _ ↔ _
    rw [hsent]
    exact httpAnswer_iff integer hL _ _ htext

end Tools

/-! ## A body that is cut inside a character -/

/-- The values that the HTTP tools build. -/
inductive HttpLuaValue where
  | nil
  | integer (n : Int)
  | string (b : Bytes)

/-- Tables of these, in which a key with the value `nil` is absent. -/
def httpLua : LuaCrate where
  Value := HttpLuaValue
  Table := Bytes → Option HttpLuaValue
  nil := .nil
  string := .string
  asString
    | .string b => some b
    | _ => none
  empty _ := none
  get t k := t k
  rawset t k v := Function.update t k (match v with
    | .nil => none
    | v => some v)

theorem httpLua_tableLaws : httpLua.TableLaws where
  asString_string _ := rfl
  get_empty _ := rfl
  get_rawset_string _ _ _ := Function.update_self _ _ _
  get_rawset_nil _ := Function.update_self _ _ _
  get_rawset_of_ne _ _ _ _ h := Function.update_of_ne (Ne.symm h) _ _

/-- A client whose requests all get one response. -/
def oneResponse (resp : HttpResponse) : HttpClient where
  get _ := .ok resp
  post _ _ _ := .ok resp

/-- The arguments `{url = .., body = ..}`. -/
def httpArgs (url body : Bytes) : httpLua.Table :=
  httpLua.rawset (httpLua.rawset httpLua.empty (strBytes "url") (.string url)) (strBytes "body")
    (.string body)

/-- As many bytes as the limit, then a character of two bytes. -/
def cutBody : String := String.ofList (List.replicate MAX_HTTP_BODY 'a' ++ ['é'])

/-- One byte less than the limit, then a character of two bytes. -/
def longBody : String := String.ofList (List.replicate (MAX_HTTP_BODY - 1) 'a' ++ ['é'])

theorem charBytes_replicate_length (n : Nat) : (charBytes (List.replicate n 'a')).length = n := by
  induction n with
  | zero => rfl
  | succ n ih =>
      have hsize : ('a').utf8Size = 1 := rfl
      rw [List.replicate_succ, charBytes_cons_length, ih, hsize, Nat.add_comm]

theorem longBody_not_boundary : ¬ IsCharBoundary longBody MAX_HTTP_BODY := by
  have hsize : ('é').utf8Size = 2 := by decide
  have hmax : MAX_HTTP_BODY = 1048576 := by decide
  apply not_isCharBoundary_concat
  · rw [charBytes_replicate_length]
    omega
  · rw [charBytes_replicate_length, hsize]
    omega

theorem longBody_length : MAX_HTTP_BODY < (strBytes longBody).length := by
  have hsize : (charBytes ['é']).length = 2 := by decide
  have hmax : MAX_HTTP_BODY = 1048576 := by decide
  rw [longBody, strBytes_ofList, charBytes_append, List.length_append,
    charBytes_replicate_length, hsize]
  omega

/-- A body of which the last character is cut off. -/
theorem http_body_truncated_iff_cut :
    let http := oneResponse ⟨200, .ok cutBody⟩
    let args := httpArgs [0x68] []
    MAX_HTTP_BODY < (strBytes cutBody).length ∧
      ReturnsTruncated httpLua (toolHttpGet httpLua .integer http args) cutBody ∧
      ReturnsTruncated httpLua (toolHttpPost httpLua .integer http args) cutBody := by
  intro http args
  have hlong : MAX_HTTP_BODY < (strBytes cutBody).length := by
    have hsize : (charBytes ['é']).length = 2 := by decide
    rw [cutBody, strBytes_ofList, charBytes_append, List.length_append,
      charBytes_replicate_length, hsize]
    omega
  have hboundary : IsCharBoundary cutBody MAX_HTTP_BODY := by
    refine ⟨List.replicate MAX_HTTP_BODY 'a', ?_, charBytes_replicate_length _⟩
    rw [cutBody, String.toList_ofList]
    exact List.prefix_append _ _
  have htext : (⟨200, .ok cutBody⟩ : HttpResponse).text = .ok cutBody := rfl
  obtain ⟨hget, hpost⟩ := http_body_truncated_iff HttpLuaValue.integer httpLua_tableLaws http htext
  exact ⟨hlong, (hget args [0x68] (by decide) rfl).mpr (Or.inr hboundary),
    (hpost args [0x68] [] (by decide) (by decide) rfl).mpr (Or.inr hboundary)⟩

/-- Both tools panic on a body whose cut is inside its last character. -/
theorem http_body_panics :
    let http := oneResponse ⟨200, .ok longBody⟩
    let args := httpArgs [0x68] []
    toolHttpGet httpLua .integer http args = .error .outOfRange ∧
      toolHttpPost httpLua .integer http args = .error .outOfRange ∧
      ¬ ∀ (http : HttpClient) (resp : HttpResponse) (response : String),
        resp.text = .ok response → TruncatesBodies httpLua .integer http resp response := by
  intro http args
  have hslice : truncateBody longBody = .error .outOfRange := by
    rw [truncateBody_long longBody_length, strSliceTo_error longBody_not_boundary]
  have hanswer : ∀ failed unread, httpAnswer httpLua .integer failed unread
      (.ok ⟨200, .ok longBody⟩) = .error .outOfRange := by
    intro failed unread
    show (truncateBody longBody >>= _) = _
    rw [hslice]
    rfl
  have hget : toolHttpGet httpLua .integer http args = .error .outOfRange :=
    hanswer "http_get failed" "http_get: failed to read body"
  have hpost : toolHttpPost httpLua .integer http args = .error .outOfRange :=
    hanswer "http_post failed" "http_post: failed to read body"
  refine ⟨hget, hpost, ?_⟩
  intro h
  obtain ⟨table, body, hreturned, -⟩ :=
    (h http ⟨200, .ok longBody⟩ longBody rfl).1 args [0x68] (by decide) rfl
  rw [hget] at hreturned
  cases hreturned

end ProvenoOracle
