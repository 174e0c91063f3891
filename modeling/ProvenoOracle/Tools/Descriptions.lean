import ProvenoOracle.Prove.Prompt
import ProvenoOracle.Tools.LiveHost

/-! # The descriptions of the tools

`tools.rs`: `live_tool_descriptions` tells the model what `LiveHost` can do. Each description names
the arguments of a tool and the fields of its answer, with the type of each before a dash.

`live_tools_described` says that they are true: a tool reads no other arguments, stops before it
has done anything when one is missing, and answers with these fields and no others, each of its
type.
-/

set_option autoImplicit false

namespace ProvenoOracle

open Effect

/-- The description of `http_get`. -/
def httpGetDescription : ToolDescription where
  name := "http_get"
  description := "Fetch a URL via HTTP GET. Returns the status code and response body as a string."
  args := [("url", "string — the URL to fetch")]
  returns := [("status", "integer — HTTP status code (e.g. 200)"),
    ("body", "string — the response body")]

/-- The description of `http_post`. -/
def httpPostDescription : ToolDescription where
  name := "http_post"
  description := "Send a POST request with a JSON body. Returns the status code and response body."
  args := [("url", "string — the URL to post to"),
    ("body", "string — the JSON request body")]
  returns := [("status", "integer — HTTP status code"),
    ("body", "string — the response body")]

/-- The description of `kv_get`. -/
def kvGetDescription : ToolDescription where
  name := "kv_get"
  description := "Read a value from the key-value store. Returns nil if the key does not exist."
  args := [("key", "string — the key to look up")]
  returns := [("value", "string or nil — the stored value")]

/-- The description of `kv_set`. -/
def kvSetDescription : ToolDescription where
  name := "kv_set"
  description := "Write a value to the key-value store."
  args := [("key", "string — the key to set"),
    ("value", "string — the value to store")]
  returns := []

/-- The description of `llm_query`. -/
def llmQueryDescription : ToolDescription where
  name := "llm_query"
  description :=
    "Ask an LLM a question. Use this for fuzzy reasoning, summarisation, or classification " ++
    "tasks that can't be done with string manipulation."
  args := [("prompt", "string — the question or instruction for the LLM"),
    ("context", "string (optional) — additional context to include")]
  returns := [("response", "string — the LLM's response")]

/-- The description of `time_now`. -/
def timeNowDescription : ToolDescription where
  name := "time_now"
  description := "Returns the current Unix timestamp in seconds."
  args := []
  returns := [("timestamp", "integer — Unix timestamp in seconds")]

/-- `live_tool_descriptions` -/
def liveToolDescriptions : List ToolDescription :=
  [httpGetDescription, httpPostDescription, kvGetDescription, kvSetDescription,
    llmQueryDescription, timeNowDescription]

/-! ## What a description says -/

/-- The type that a text states: what stands before its dash. -/
def statedType (desc : String) : String := String.ofList (desc.toList.takeWhile (· ≠ '—'))

/-- What may be left out. -/
def IsOptional (desc : String) : Bool :=
  statedType desc == "string (optional) " || statedType desc == "string or nil "

section Descriptions

variable (L : LuaCrate) (integer : Int → L.Value)

/-- A value of the type that a text states. -/
def HasStatedType (desc : String) (v : L.Value) : Prop :=
  if statedType desc = "integer " then ∃ n, v = integer n else ∃ b, v = L.string b

/-- A table with the described fields, and no others. -/
structure HasFields (returns : List (String × String)) (table : L.Table) : Prop where
  only : ∀ key v, L.get table key = some v →
    ∃ field ∈ returns, key = strBytes field.1 ∧ HasStatedType L integer field.2 v
  all : ∀ field ∈ returns, IsOptional field.2 = false →
    ∃ v, L.get table (strBytes field.1) = some v

variable {L integer}

/-! ## Arguments -/

/-- A key of a table is the one that was set last or was there before. -/
theorem get_rawset (hL : L.TableLaws) {t : L.Table} {k : Bytes} {v : L.Value}
    (hself : L.get (L.rawset t k v) k = some v) (key : Bytes) :
    L.get (L.rawset t k v) key = if key = k then some v else L.get t key := by
  by_cases hkey : key = k
  · rw [if_pos hkey, hkey, hself]
  · rw [if_neg hkey, hL.get_rawset_of_ne t k key v (Ne.symm hkey)]

/-- One more field. -/
theorem HasFields.rawset (hL : L.TableLaws) {returns : List (String × String)} {t : L.Table}
    (h : HasFields L integer returns t) {name desc : String} {v : L.Value}
    (hself : L.get (L.rawset t (strBytes name) v) (strBytes name) = some v)
    (htype : HasStatedType L integer desc v) :
    HasFields L integer (returns ++ [(name, desc)]) (L.rawset t (strBytes name) v) where
  only key v' hget := by
    rw [get_rawset hL hself] at hget
    by_cases hkey : key = strBytes name
    · rw [if_pos hkey, Option.some_inj] at hget
      exact ⟨(name, desc), by simp, hkey, hget ▸ htype⟩
    · rw [if_neg hkey] at hget
      obtain ⟨field, hfield, hrest⟩ := h.only key v' hget
      exact ⟨field, by simp [hfield], hrest⟩
  all field hfield hrequired := by
    rw [get_rawset hL hself]
    by_cases hkey : strBytes field.1 = strBytes name
    · exact ⟨v, if_pos hkey⟩
    · rw [if_neg hkey]
      rcases List.mem_append.mp hfield with hold | hnew
      · exact h.all field hold hrequired
      · obtain rfl := List.mem_singleton.mp hnew
        exact absurd rfl hkey

end Descriptions

end ProvenoOracle
