import ProvenoOracle.Codec.SelfDelimiting
import ProvenoOracle.Prove.Crates

/-! # What the tape hash binds

`pipeline.rs`: the report of a run carries three hashes (`compute_hashes`). The one of the tape is
taken of the canonical arguments and responses of all tool calls, one after the other, without
anything between them. So it binds their concatenation: neither the names and the statuses of the
calls, nor, where a response is empty, which field belongs to which call
(`tape_hash_unbound`). What it does bind is `tape_hash_binds`.
-/

set_option autoImplicit false

namespace ProvenoOracle

open Codec

/-! ## The report -/

/-- `ToolCallStatus` -/
inductive ToolCallStatus where
  | ok
  | error
  deriving DecidableEq

/-- `ToolCallRecord`: one call of the transcript. -/
structure ToolCallRecord where
  toolName : String
  argsCanonical : Bytes
  responseCanonical : Bytes
  status : ToolCallStatus
  deriving DecidableEq

/-- `VmOutput`: what a run has returned, and the tool calls it has made. -/
structure VmOutput (Value : Type) where
  returnValue : Value
  transcript : List ToolCallRecord

/-- `TokenUsage` -/
structure TokenUsage where
  inputTokens : UInt64
  outputTokens : UInt64
  deriving DecidableEq

/-- `PipelineResult`: what a successful run is reported with. -/
structure PipelineResult (Output : Type) where
  task : String
  model : String
  source : String
  output : Output
  config : VmConfig
  attempts : Nat
  tokenUsage : TokenUsage

/-- `VerificationHashes` -/
structure VerificationHashes where
  programHash : String
  tapeHash : String
  outputHash : String

section Hashes

variable {Value : Type} (sha256Hex : Bytes → String) (formatValue : Value → String)

/-- The loop of `compute_hashes` over the transcript. -/
def tapeData (transcript : List ToolCallRecord) : Bytes :=
  transcript.foldl (fun tape r => tape ++ r.argsCanonical ++ r.responseCanonical) []

/-- `compute_hashes` -/
def computeHashes (result : PipelineResult (VmOutput Value)) : VerificationHashes where
  programHash := sha256Hex (strBytes result.source)
  tapeHash := sha256Hex (tapeData result.output.transcript)
  outputHash := sha256Hex (strBytes (formatValue result.output.returnValue))

end Hashes

/-! ## What is concatenated -/

/-- The hashed fields of a call. -/
def ToolCallRecord.hashed (r : ToolCallRecord) : Bytes × Bytes :=
  (r.argsCanonical, r.responseCanonical)

/-- The hashed fields of a transcript, in order. -/
def hashedFields (transcript : List ToolCallRecord) : List Bytes :=
  transcript.flatMap fun r => [r.argsCanonical, r.responseCanonical]

/-- The hashed bytes are the fields, one after the other. -/
theorem tapeData_eq_flatten (transcript : List ToolCallRecord) :
    tapeData transcript = (hashedFields transcript).flatten := by
  have hloop : ∀ tape : Bytes,
      transcript.foldl (fun tape r => tape ++ r.argsCanonical ++ r.responseCanonical) tape
        = tape ++ (hashedFields transcript).flatten := by
    induction transcript with
    | nil =>
        intro tape
        exact (List.append_nil tape).symm
    | cons r rest ih =>
        intro tape
        rw [List.foldl_cons, ih]
        show _ = tape ++ (r.argsCanonical ++ (r.responseCanonical ++ (hashedFields rest).flatten))
        rw [List.append_assoc, List.append_assoc]
  exact hloop []

/-- Dropping the empty fields does not change the hashed bytes. -/
theorem flatten_filter_ne_nil (fields : List Bytes) :
    (fields.filter (· ≠ [])).flatten = fields.flatten := by
  induction fields with
  | nil => rfl
  | cons field rest ih =>
      by_cases hempty : field = []
      · rw [List.filter_cons_of_neg (by simpa using hempty), List.flatten_cons, hempty, ih]
        rfl
      · rw [List.filter_cons_of_pos (by simpa using hempty), List.flatten_cons, List.flatten_cons,
          ih]

/-- Transcripts with the same fields in order have the same fields call by call. -/
theorem map_hashed_eq {t t' : List ToolCallRecord} (h : hashedFields t = hashedFields t') :
    t.map ToolCallRecord.hashed = t'.map ToolCallRecord.hashed := by
  induction t generalizing t' with
  | nil =>
      cases t' with
      | nil => rfl
      | cons r' rest' => cases h
  | cons r rest ih =>
      cases t' with
      | nil => cases h
      | cons r' rest' =>
          rcases List.cons.inj h with ⟨hargs, hrest⟩
          rcases List.cons.inj hrest with ⟨hresponse, hfields⟩
          rw [List.map_cons, List.map_cons, ih hfields]
          exact congrArg (· :: _) (Prod.ext hargs hresponse)

/-- Concatenations of fields of the same lengths are split at the same places. -/
theorem eq_of_flatten_of_lengths {fields fields' : List Bytes}
    (hlengths : fields.map List.length = fields'.map List.length)
    (h : fields.flatten = fields'.flatten) : fields = fields' := by
  induction fields generalizing fields' with
  | nil =>
      cases fields' with
      | nil => rfl
      | cons field' rest' => cases hlengths
  | cons field rest ih =>
      cases fields' with
      | nil => cases hlengths
      | cons field' rest' =>
          rcases List.cons.inj hlengths with ⟨hlength, hrest⟩
          rcases List.append_inj h hlength with ⟨hfield, hflatten⟩
          rw [hfield, ih hrest hflatten]

/-- The hashed fields are the arguments and the responses of the calls. -/
theorem forall_mem_hashedFields {P : Bytes → Prop} {t : List ToolCallRecord}
    (h : ∀ c ∈ t, P c.argsCanonical ∧ P c.responseCanonical) : ∀ b ∈ hashedFields t, P b := by
  intro b hb
  rcases List.mem_flatMap.mp hb with ⟨c, hc, hfield⟩
  obtain ⟨hargs, hresponse⟩ := h c hc
  have hcases : b = c.argsCanonical ∨ b = c.responseCanonical := by simpa using hfield
  rcases hcases with rfl | rfl
  · exact hargs
  · exact hresponse

/-- Of the fields of calls with documents or nothing for responses, those with content are
documents. -/
theorem document_of_mem_filter {Document : Bytes → Prop} {t : List ToolCallRecord}
    (h : ∀ c ∈ t, Document c.argsCanonical ∧
      (c.responseCanonical = [] ∨ Document c.responseCanonical)) :
    ∀ b ∈ (hashedFields t).filter (· ≠ []), Document b := by
  intro b hb
  rcases List.mem_filter.mp hb with ⟨hmem, hnonempty⟩
  have hfield : b ≠ [] → Document b := by
    apply forall_mem_hashedFields _ b hmem
    intro c hc
    exact ⟨fun _ => (h c hc).1, fun hne => (h c hc).2.resolve_left hne⟩
  exact hfield (by simpa using hnonempty)

/-- A concatenation of self-delimiting documents splits in only one way. -/
theorem eq_of_flatten_of_documents {Document : Bytes → Prop}
    (hdocument : SelfDelimiting Document id) (hnil : ¬Document []) {fields fields' : List Bytes}
    (hfields : ∀ b ∈ fields, Document b) (hfields' : ∀ b ∈ fields', Document b)
    (h : fields.flatten = fields'.flatten) : fields = fields' := by
  have hne : ∀ b, Document b → id b ≠ [] := by
    rintro b hb rfl
    exact hnil hb
  apply hdocument.concat_inj hne hfields hfields'
  rw [List.flatMap_id, List.flatMap_id]
  exact h

/-! ## The tape hash -/

/-- **What the tape hash binds.** Two results with the same hashed bytes have the same fields
call by call if their fields have the same lengths. If the canonical documents are
self-delimiting, and the fields are documents except for empty responses, the two transcripts
have the same documents in the same order, and without empty responses the same calls up to
names and statuses. -/
theorem tape_hash_binds {Value : Type} (r r' : PipelineResult (VmOutput Value))
    (h : tapeData r.output.transcript = tapeData r'.output.transcript) :
    ((hashedFields r.output.transcript).map List.length
        = (hashedFields r'.output.transcript).map List.length →
      r.output.transcript.map ToolCallRecord.hashed
        = r'.output.transcript.map ToolCallRecord.hashed) ∧
    ∀ Document : Bytes → Prop, SelfDelimiting Document id → ¬Document [] →
      ((∀ c ∈ r.output.transcript ++ r'.output.transcript,
          Document c.argsCanonical ∧ (c.responseCanonical = [] ∨ Document c.responseCanonical)) →
        (hashedFields r.output.transcript).filter (· ≠ [])
          = (hashedFields r'.output.transcript).filter (· ≠ [])) ∧
      ((∀ c ∈ r.output.transcript ++ r'.output.transcript,
          Document c.argsCanonical ∧ Document c.responseCanonical) →
        r.output.transcript.map ToolCallRecord.hashed
          = r'.output.transcript.map ToolCallRecord.hashed) := by
  rw [tapeData_eq_flatten, tapeData_eq_flatten] at h
  refine ⟨?_, ?_⟩
  · intro hlengths
    exact map_hashed_eq (eq_of_flatten_of_lengths hlengths h)
  intro Document hdocument hnil
  constructor
  · intro hcalls
    -- empty responses leave no trace in the hashed bytes
    apply eq_of_flatten_of_documents hdocument hnil
    · exact document_of_mem_filter fun c hc => hcalls c (List.mem_append_left _ hc)
    · exact document_of_mem_filter fun c hc => hcalls c (List.mem_append_right _ hc)
    · rw [flatten_filter_ne_nil, flatten_filter_ne_nil, h]
  · intro hcalls
    apply map_hashed_eq
    apply eq_of_flatten_of_documents hdocument hnil
    · exact forall_mem_hashedFields fun c hc => hcalls c (List.mem_append_left _ hc)
    · exact forall_mem_hashedFields fun c hc => hcalls c (List.mem_append_right _ hc)
    · exact h

/-! ## Different tapes, one hash -/

/-- The report of a run that only differs in its transcript. -/
def reportOf (transcript : List ToolCallRecord) : PipelineResult (VmOutput Unit) :=
  ⟨"", "", "return 1", ⟨(), transcript⟩, ⟨200000, 16777216, 16, 65536⟩, 1, ⟨0, 0⟩⟩

/-- The canonical bytes of an empty table. -/
def emptyTable : Bytes := [0x7b, 0x7d]

/-- The canonical bytes of `{a = 1}`. -/
def keyTable : Bytes := [0x7b, 0x22, 0x61, 0x22, 0x3a, 0x31, 0x7d]

/-- A call with an empty table for arguments and for its response. -/
def emptyCall (tool : String) : ToolCallRecord := ⟨tool, emptyTable, emptyTable, .ok⟩

/-- A call with arguments and an empty table for its response. -/
def keyCall (tool : String) : ToolCallRecord := ⟨tool, keyTable, emptyTable, .ok⟩

/-- A failed call: no response. -/
def failedCall (tool : String) : ToolCallRecord := ⟨tool, emptyTable, [], .error⟩

/-- Documents of two and of seven bytes. -/
theorem tape_hash_binds_keys :
    tapeData (reportOf [keyCall "a", emptyCall "b"]).output.transcript
        = tapeData (reportOf [keyCall "c", emptyCall "d"]).output.transcript ∧
      (reportOf [keyCall "a", emptyCall "b"]).output.transcript.map ToolCallRecord.hashed
        = (reportOf [keyCall "c", emptyCall "d"]).output.transcript.map ToolCallRecord.hashed := by
  have hself : SelfDelimiting (fun b => b = emptyTable ∨ b = keyTable) id := by
    rintro b b' s t (rfl | rfl) (rfl | rfl) h
    · exact ⟨rfl, List.append_cancel_left h⟩
    · simp [emptyTable, keyTable] at h
    · simp [emptyTable, keyTable] at h
    · exact ⟨rfl, List.append_cancel_left h⟩
  refine ⟨rfl, ?_⟩
  apply ((tape_hash_binds (reportOf [keyCall "a", emptyCall "b"])
    (reportOf [keyCall "c", emptyCall "d"]) rfl).2 (fun b => b = emptyTable ∨ b = keyTable) hself
    (by decide)).2
  decide

/-- One call with a response and two failed calls hash to the same tape, and so do calls of
different tools. -/
theorem tape_hash_unbound :
    tapeData [emptyCall "time_now"] = tapeData [failedCall "kv_get", failedCall "kv_get"] ∧
      tapeData [emptyCall "kv_get"] = tapeData [emptyCall "kv_set"] ∧
      ¬∀ r r' : PipelineResult (VmOutput Unit),
        tapeData r.output.transcript = tapeData r'.output.transcript →
        r.output.transcript.length = r'.output.transcript.length ∧
          r.output.transcript = r'.output.transcript := by
  refine ⟨rfl, rfl, ?_⟩
  intro hbinds
  have hlength := (hbinds (reportOf [emptyCall "time_now"])
    (reportOf [failedCall "kv_get", failedCall "kv_get"]) rfl).1
  exact absurd hlength (by decide)

end ProvenoOracle
