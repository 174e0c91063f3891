import ProvenoOracle.Codec.Split
import ProvenoOracle.Prove.Client

/-! # Generating and compiling in a batch

`--generate-and-compile` measures the language model: it asks for a program a number of times,
each time in a fresh conversation, and counts how far each program gets (`pipeline.rs`, `main.rs`).
Nothing is retried and nothing is run.

The counts are exact (`batch_counts`), the printed table has one line for each run whatever the
error messages look like (`histogram_one_line_each`), and a run of the batch goes the way the first
attempt of the retry loop would (`batch_predicts_first_attempt`).
-/

set_option autoImplicit false

namespace ProvenoOracle

/-! ## Stages -/

/-- `Stage` -/
inductive Stage where
  | generate
  | parse
  | compile
  | verify
  | compiled
  | runtime
  deriving DecidableEq

/-- `Stage::label` -/
def Stage.label : Stage → String
  | .generate => "GENERATE"
  | .parse => "PARSE"
  | .compile => "COMPILE"
  | .verify => "VERIFY"
  | .compiled => "COMPILED"
  | .runtime => "RUNTIME"

/-- `PipelineError::stage` -/
def PipelineError.stage {Value : Type} : PipelineError Value → Stage
  | .parse _ => .parse
  | .compile _ => .compile
  | .verify _ => .verify
  | .runtime _ _ => .runtime

/-- `GenerateCompileOutcome` -/
structure GenerateCompileOutcome where
  stage : Stage
  error : Option String
  source : Option String
  usage : TokenUsage
  latencyMs : Nat
  deriving DecidableEq

/-- `TokenUsage::total` -/
def TokenUsage.total (t : Target) (u : TokenUsage) : Run UInt64 :=
  u64Add t u.inputTokens u.outputTokens

/-! ## One run -/

section Batch

variable {C : ProvenoCrates} (t : Target) (lua : LuaCompiler C) (client : LlmClient)
  (system task : String)

/-- `generate_and_compile`, for a provider and the time that the run takes. -/
def generateAndCompile (api : Api) (latencyMs : Nat) : GenerateCompileOutcome :=
  match client.generate api system [⟨"user", task⟩] with
  | .error e => ⟨.generate, some e.text, none, ⟨0, 0⟩, latencyMs⟩
  | .ok response =>
      let source := stripCodeFences response.text
      match compileAndVerify lua source with
      | .ok _ => ⟨.compiled, none, some source, response.usage, latencyMs⟩
      | .error e => ⟨e.stage, some e.text, some source, response.usage, latencyMs⟩

/-! ## Counting -/

/-- `StageHistogram` -/
structure StageHistogram where
  generate : Nat
  parse : Nat
  compile : Nat
  verify : Nat
  compiled : Nat

/-- One outcome is counted. -/
def StageHistogram.count (h : StageHistogram) (o : GenerateCompileOutcome) : StageHistogram :=
  match o.stage with
  | .generate => { h with generate := h.generate + 1 }
  | .parse => { h with parse := h.parse + 1 }
  | .compile => { h with compile := h.compile + 1 }
  | .verify => { h with verify := h.verify + 1 }
  | .compiled => { h with compiled := h.compiled + 1 }
  -- does not occur when nothing is run
  | .runtime => h

/-- `StageHistogram::from_outcomes` -/
def StageHistogram.fromOutcomes (outcomes : List GenerateCompileOutcome) : StageHistogram :=
  outcomes.foldl StageHistogram.count ⟨0, 0, 0, 0, 0⟩

/-- `StageHistogram::total` -/
def StageHistogram.total (h : StageHistogram) : Nat :=
  h.generate + h.parse + h.compile + h.verify + h.compiled

/-- The count of a stage. -/
def StageHistogram.at (h : StageHistogram) : Stage → Nat
  | .generate => h.generate
  | .parse => h.parse
  | .compile => h.compile
  | .verify => h.verify
  | .compiled => h.compiled
  | .runtime => 0

theorem StageHistogram.at_count (h : StageHistogram) (o : GenerateCompileOutcome) {s : Stage}
    (hs : s ≠ .runtime) : (h.count o).at s = h.at s + if o.stage = s then 1 else 0 := by
  unfold StageHistogram.count
  cases s with
  | runtime => exact absurd rfl hs
  | _ => cases o.stage <;> simp [StageHistogram.at]

/-- **Every stage is counted exactly.** By induction on the outcomes. -/
theorem StageHistogram.at_foldl (outcomes : List GenerateCompileOutcome) {s : Stage}
    (hs : s ≠ .runtime) : ∀ h : StageHistogram,
      (outcomes.foldl StageHistogram.count h).at s
        = h.at s + outcomes.countP fun o => o.stage = s := by
  induction outcomes with
  | nil => exact fun _ => rfl
  | cons o outcomes ih =>
      intro h
      rw [List.foldl_cons, ih, h.at_count o hs, List.countP_cons]
      simp only [decide_eq_true_eq]
      omega

theorem StageHistogram.total_count (h : StageHistogram) {o : GenerateCompileOutcome}
    (ho : o.stage ≠ .runtime) : (h.count o).total = h.total + 1 := by
  unfold StageHistogram.count StageHistogram.total
  cases hstage : o.stage with
  | runtime => exact absurd hstage ho
  | _ => simp only; omega

theorem StageHistogram.total_foldl {outcomes : List GenerateCompileOutcome}
    (houtcomes : ∀ o ∈ outcomes, o.stage ≠ .runtime) : ∀ h : StageHistogram,
      (outcomes.foldl StageHistogram.count h).total = h.total + outcomes.length := by
  induction outcomes with
  | nil => exact fun _ => rfl
  | cons o outcomes ih =>
      intro h
      rw [List.foldl_cons, ih fun o' ho' => houtcomes o' (List.mem_cons_of_mem o ho'),
        h.total_count (houtcomes o List.mem_cons_self), List.length_cons]
      omega

/-! ## The batch -/

/-- The runs of a batch, from the `i`-th one on. The number of tokens of each run is printed when
the run is over, and the addition can overflow. -/
def batchFrom (api : Nat → Api) (latencyMs : Nat → Nat) :
    Nat → Nat → Run (List GenerateCompileOutcome)
  | _, 0 => .ok []
  | i, left + 1 => do
      let outcome := generateAndCompile lua client system task (api i) (latencyMs i)
      let _ ← outcome.usage.total t
      let outcomes ← batchFrom api latencyMs (i + 1) left
      return outcome :: outcomes

/-- The outcomes of `run_generate_and_compile_batch`. The room for all of them is reserved first
(`Vec::with_capacity`), which ends the process when they are too many. -/
def runGenerateAndCompileBatch (reserve : Nat → Run Unit) (api : Nat → Api) (latencyMs : Nat → Nat)
    (n : Nat) : Run (List GenerateCompileOutcome) := do
  reserve n
  batchFrom t lua client system task api latencyMs 1 n

/-- **What an outcome says**: the model was asked for the task in a fresh conversation, and the
stage, the error and the source are those of its answer, or there was no answer and the error is
that of the client. -/
structure OutcomeOf (api : Api) (o : GenerateCompileOutcome) : Prop where
  notRuntime : o.stage ≠ .runtime
  error : o.error = none ↔ o.stage = .compiled
  source : o.source = none ↔ o.stage = .generate
  failed : ∀ e, client.generate api system [⟨"user", task⟩] = .error e →
    o.stage = .generate ∧ o.error = some e.text
  answered : ∀ response, client.generate api system [⟨"user", task⟩] = .ok response →
    Answers client (api (client.request system [⟨"user", task⟩])) response ∧
    o.source = some (stripCodeFences response.text) ∧ o.usage = response.usage ∧
    ((o.stage = .compiled ∧
        ∃ program, compileAndVerify lua (stripCodeFences response.text) = .ok program) ∨
      ∃ err, compileAndVerify lua (stripCodeFences response.text) = .error err ∧
        o.stage = err.stage ∧ o.error = some err.text)

variable {t lua client system task}

/-- The compiler does not run anything. -/
theorem compileAndVerify_stage {source : String} {err : PipelineError C.Value}
    (h : compileAndVerify lua source = .error err) :
    err.stage ≠ .runtime ∧ err.stage ≠ .compiled ∧ err.stage ≠ .generate := by
  unfold compileAndVerify at h
  cases hparse : lua.parse source with
  | error msg =>
      rw [hparse] at h
      obtain rfl := Except.error.inj h
      simp [PipelineError.stage]
  | ok ast =>
      rw [hparse] at h
      cases hcompile : lua.compile ast with
      | error msg =>
          have herr : (Except.error (.compile msg) : Except (PipelineError C.Value) C.Program)
              = .error err := by simpa [hcompile, Except.mapError, bind, Except.bind] using h
          obtain rfl := Except.error.inj herr
          simp [PipelineError.stage]
      | ok program =>
          cases hverify : lua.verify program with
          | error msg =>
              have herr : (Except.error (.verify msg) : Except (PipelineError C.Value) C.Program)
                  = .error err := by
                simpa [hcompile, hverify, Except.mapError, bind, Except.bind] using h
              obtain rfl := Except.error.inj herr
              simp [PipelineError.stage]
          | ok _ =>
              simp [hcompile, hverify, Except.mapError, bind, Except.bind, pure, Except.pure] at h

/-- An answer is compiled. -/
theorem generateAndCompile_ok {api : Api} {response : LlmResponse}
    (h : client.generate api system [⟨"user", task⟩] = .ok response) (latencyMs : Nat) :
    generateAndCompile lua client system task api latencyMs
      = match compileAndVerify lua (stripCodeFences response.text) with
        | .ok _ => ⟨.compiled, none, some (stripCodeFences response.text), response.usage,
            latencyMs⟩
        | .error e => ⟨e.stage, some e.text, some (stripCodeFences response.text),
            response.usage, latencyMs⟩ := by
  rw [generateAndCompile, h]

theorem generateAndCompile_outcome (api : Api) (latencyMs : Nat) :
    OutcomeOf lua client system task api
      (generateAndCompile lua client system task api latencyMs) := by
  cases hgenerate : client.generate api system [⟨"user", task⟩] with
  | error e =>
      rw [generateAndCompile, hgenerate]
      constructor <;> simp [hgenerate]
  | ok response =>
      have hanswers := LlmClient.generate_ok hgenerate
      rw [generateAndCompile_ok hgenerate]
      cases hcompile : compileAndVerify lua (stripCodeFences response.text) with
      | ok program =>
          refine ⟨by simp, by simp, by simp, by simp [hgenerate], ?_⟩
          intro response' hresponse
          obtain rfl : response = response' := by simpa [hgenerate] using hresponse
          exact ⟨hanswers, rfl, rfl, Or.inl ⟨rfl, program, hcompile⟩⟩
      | error err =>
          obtain ⟨hruntime, hcompiled, hgenerated⟩ := compileAndVerify_stage hcompile
          refine ⟨hruntime, by simp [hcompiled], by simp [hgenerated], by simp [hgenerate], ?_⟩
          intro response' hresponse
          obtain rfl : response = response' := by simpa [hgenerate] using hresponse
          exact ⟨hanswers, rfl, rfl, Or.inr ⟨err, hcompile, rfl, rfl⟩⟩

/-- The outcomes of a batch, one by one. By induction on the runs that are left. -/
theorem batchFrom_ok {api : Nat → Api} {latencyMs : Nat → Nat} {n : Nat} :
    ∀ {i : Nat} {outcomes : List GenerateCompileOutcome},
      batchFrom t lua client system task api latencyMs i n = .ok outcomes →
      outcomes = (List.range' i n).map fun k =>
        generateAndCompile lua client system task (api k) (latencyMs k) := by
  induction n with
  | zero =>
      intro i outcomes h
      exact (Except.ok.inj h).symm
  | succ n ih =>
      intro i outcomes h
      obtain ⟨total, -, h⟩ := Run.bind_eq_ok h
      obtain ⟨rest, hrest, h⟩ := Run.bind_eq_ok h
      obtain rfl := Except.ok.inj h
      rw [List.range'_succ, List.map_cons, ih hrest]

/-- **The counts of a batch are exact**: it has `n` runs, the outcome of each comes from the answer
to that run alone, the counts of the stages are the numbers of runs that ended there, and
together they make `n`. -/
theorem batch_counts {reserve : Nat → Run Unit} {api : Nat → Api} {latencyMs : Nat → Nat} {n : Nat}
    {outcomes : List GenerateCompileOutcome}
    (h : runGenerateAndCompileBatch t lua client system task reserve api latencyMs n
      = .ok outcomes) :
    outcomes.length = n ∧
      (∀ i o, outcomes[i]? = some o → OutcomeOf lua client system task (api (i + 1)) o) ∧
      (StageHistogram.fromOutcomes outcomes).total = n ∧
      ∀ s, s ≠ .runtime →
        (StageHistogram.fromOutcomes outcomes).at s = outcomes.countP fun o => o.stage = s := by
  obtain ⟨-, -, hfrom⟩ := Run.bind_eq_ok h
  have hruns := batchFrom_ok hfrom
  have hlength : outcomes.length = n := by
    rw [hruns, List.length_map, List.length_range']
  have houtcome : ∀ i o, outcomes[i]? = some o →
      OutcomeOf lua client system task (api (i + 1)) o := by
    intro i o ho
    rw [hruns, List.getElem?_map, Option.map_eq_some_iff] at ho
    obtain ⟨k, hk, rfl⟩ := ho
    have hi : i < n := by
      obtain ⟨hi, -⟩ := List.getElem?_eq_some_iff.mp hk
      rwa [List.length_range'] at hi
    rw [List.getElem?_range' hi, Option.some_inj] at hk
    obtain rfl : k = i + 1 := by omega
    exact generateAndCompile_outcome _ _
  refine ⟨hlength, houtcome, ?_, ?_⟩
  · have hstages : ∀ o ∈ outcomes, o.stage ≠ .runtime := by
      intro o ho
      obtain ⟨i, hi⟩ := List.mem_iff_getElem?.mp ho
      exact (houtcome i o hi).notRuntime
    rw [StageHistogram.fromOutcomes, StageHistogram.total_foldl hstages, hlength]
    exact Nat.zero_add n
  · intro s hs
    rw [StageHistogram.fromOutcomes, StageHistogram.at_foldl outcomes hs]
    cases s <;> simp [StageHistogram.at]

end Batch

/-- Three runs with a model that forgets a summand at first. -/
def addOutcomes : List GenerateCompileOutcome :=
  [⟨.parse, some "Parse error: UnexpectedEof", some "return 1 +", ⟨120, 10⟩, 850⟩,
    ⟨.compiled, none, some "return 1 + 2", ⟨0, 0⟩, 850⟩,
    ⟨.compiled, none, some "return 1 + 2", ⟨0, 0⟩, 850⟩]

theorem addOutcomes_run :
    runGenerateAndCompileBatch Target.host64 plainCompiler anthropicClient "Write Lua."
      "add one and two" (fun _ => .ok ()) forgetfulApi (fun _ => 850) 3 = .ok addOutcomes := by
  decide +kernel

theorem batch_counts_add :
    addOutcomes.length = 3 ∧
      (∀ i o, addOutcomes[i]? = some o → OutcomeOf plainCompiler anthropicClient "Write Lua."
        "add one and two" (forgetfulApi (i + 1)) o) ∧
      (StageHistogram.fromOutcomes addOutcomes).total = 3 ∧
      ∀ s, s ≠ .runtime → (StageHistogram.fromOutcomes addOutcomes).at s
        = addOutcomes.countP fun o => o.stage = s :=
  batch_counts addOutcomes_run

/-! ## The table -/

/-- Padding on the left. -/
def padLeft (width : Nat) (s : String) : String :=
  String.ofList (List.replicate (width - s.length) ' ') ++ s

/-- Padding on the right. -/
def padRight (width : Nat) (s : String) : String :=
  s ++ String.ofList (List.replicate (width - s.length) ' ')

/-- `format_outcome_line` -/
def formatOutcomeLine (t : Target) (idx : Nat) (o : GenerateCompileOutcome) : Run String :=
  let number := "  [" ++ padLeft 3 (toString idx) ++ "] "
  match o.stage, o.error with
  | .compiled, _ => do
      let total ← o.usage.total t
      return number ++ "COMPILED  (" ++ toString o.latencyMs ++ " ms, " ++ toString total.toNat
        ++ " tok)"
  | stage, some err =>
      let firstLine := strTrim ((strLines err).headD "")
      .ok (number ++ padRight 8 stage.label ++ "  (" ++ toString o.latencyMs ++ " ms) — "
        ++ firstLine)
  | stage, none =>
      .ok (number ++ padRight 8 stage.label ++ "  (" ++ toString o.latencyMs ++ " ms)")

/-- The lines of the outcomes, numbered from `idx` on. -/
def outcomeLines (t : Target) : Nat → List GenerateCompileOutcome → Run (List String)
  | _, [] => .ok []
  | idx, o :: outcomes => do
      let line ← formatOutcomeLine t idx o
      let lines ← outcomeLines t (idx + 1) outcomes
      return line :: lines

/-- A row of the histogram; `percent` prints the share of `n` in `total`, with one decimal. -/
def histogramRow (percent : Nat → Nat → String) (total : Nat) (label : String) (n : Nat) : String :=
  "  " ++ padRight 18 label ++ " " ++ padLeft 4 (toString n) ++ "  (" ++ padLeft 5 (percent n total)
    ++ "%)"

/-- The lines above those of the outcomes. -/
def histogramHeader (percent : Nat → Nat → String) (h : StageHistogram) : List String :=
  ["── Stage histogram (N=" ++ toString h.total ++ ") ────────────────",
    histogramRow percent h.total "Generate failed:" h.generate,
    histogramRow percent h.total "Parse failed:" h.parse,
    histogramRow percent h.total "Compile failed:" h.compile,
    histogramRow percent h.total "Verify failed:" h.verify,
    histogramRow percent h.total "Compiled OK:" h.compiled,
    "",
    "── Per-run outcomes ───────────────────────────"]

/-- `format_histogram` -/
def formatHistogram (t : Target) (percent : Nat → Nat → String) (h : StageHistogram)
    (outcomes : List GenerateCompileOutcome) : Run String := do
  let lines ← outcomeLines t 1 outcomes
  return String.join ((histogramHeader percent h ++ lines).map (· ++ "\n"))

theorem oneLine_spaces (n : Nat) : OneLine (String.ofList (List.replicate n ' ')) := by
  unfold OneLine
  simp

theorem OneLine.padLeft {s : String} (width : Nat) (h : OneLine s) : OneLine (padLeft width s) :=
  (oneLine_spaces _).append h

theorem OneLine.padRight {s : String} (width : Nat) (h : OneLine s) : OneLine (padRight width s) :=
  h.append (oneLine_spaces _)

theorem oneLine_label (s : Stage) : OneLine s.label := by
  unfold OneLine
  cases s <;> decide

/-- A line of a text is one line. -/
theorem oneLine_of_mem_strLines {s line : String} (h : line ∈ strLines s) : OneLine line := by
  obtain ⟨piece, hpiece, rfl⟩ := List.mem_map.mp h
  unfold OneLine
  rw [String.toList_ofList]
  rcases List.mem_append.mp hpiece with hclosed | hrest
  · obtain ⟨raw, hraw, rfl⟩ := List.mem_map.mp hclosed
    have hline := Split.not_mem_of_mem_splitOn (List.mem_of_mem_dropLast hraw)
    unfold stripCr
    split
    · exact fun hmem => hline (List.mem_of_mem_dropLast hmem)
    · exact hline
  · exact Split.not_mem_of_mem_splitOn (List.mem_of_mem_drop (List.mem_of_mem_filter hrest))

/-- The first line of a text, trimmed. -/
theorem oneLine_firstLine (s : String) : OneLine (strTrim ((strLines s).headD "")) := by
  have hhead : OneLine ((strLines s).headD "") := by
    cases hlines : strLines s with
    | nil => exact List.not_mem_nil
    | cons line lines => exact oneLine_of_mem_strLines (hlines ▸ List.mem_cons_self)
  unfold OneLine strTrim
  rw [String.toList_ofList]
  intro hmem
  have htrimmed := (List.dropWhile_sublist _).subset hmem
  exact hhead ((List.rdropWhile_prefix _ _).subset htrimmed)

/-- **An outcome takes one line**, even if its error takes many. -/
theorem oneLine_formatOutcomeLine {t : Target} {idx : Nat} {o : GenerateCompileOutcome}
    {line : String} (h : formatOutcomeLine t idx o = .ok line) : OneLine line := by
  have hnumber : OneLine ("  [" ++ padLeft 3 (toString idx) ++ "] ") :=
    ((show OneLine "  [" by decide).append ((oneLine_nat idx).padLeft 3)).append (by decide)
  have hlabel : OneLine ("  [" ++ padLeft 3 (toString idx) ++ "] " ++ padRight 8 o.stage.label
      ++ "  (" ++ toString o.latencyMs) :=
    ((hnumber.append ((oneLine_label o.stage).padRight 8)).append (by decide)).append
      (oneLine_nat _)
  unfold formatOutcomeLine at h
  split at h
  · obtain ⟨total, -, h⟩ := Run.bind_eq_ok h
    obtain rfl := Except.ok.inj h
    exact ((((hnumber.append (by decide)).append (oneLine_nat _)).append (by decide)).append
      (oneLine_nat _)).append (by decide)
  · obtain rfl := Except.ok.inj h
    exact (hlabel.append (by decide)).append (oneLine_firstLine _)
  · obtain rfl := Except.ok.inj h
    exact hlabel.append (by decide)

theorem outcomeLines_ok {t : Target} {outcomes : List GenerateCompileOutcome} :
    ∀ {idx : Nat} {lines : List String}, outcomeLines t idx outcomes = .ok lines →
      lines.length = outcomes.length ∧ (∀ line ∈ lines, OneLine line) ∧
        ∀ i o, outcomes[i]? = some o → ∃ line, lines[i]? = some line ∧
          formatOutcomeLine t (idx + i) o = .ok line := by
  induction outcomes with
  | nil =>
      intro idx lines h
      obtain rfl := Except.ok.inj h
      simp
  | cons o outcomes ih =>
      intro idx lines h
      obtain ⟨line, hline, h⟩ := Run.bind_eq_ok h
      obtain ⟨rest, hrest, h⟩ := Run.bind_eq_ok h
      obtain rfl := Except.ok.inj h
      obtain ⟨hlength, honeLine, hlines⟩ := ih hrest
      refine ⟨by rw [List.length_cons, List.length_cons, hlength], ?_, ?_⟩
      · intro l hl
        rcases List.mem_cons.mp hl with rfl | hl
        · exact oneLine_formatOutcomeLine hline
        · exact honeLine l hl
      · intro i o' ho'
        rcases i with - | i
        · obtain rfl := Option.some.inj ho'
          exact ⟨line, rfl, hline⟩
        · obtain ⟨l, hl, hformat⟩ := hlines i o' ho'
          refine ⟨l, hl, ?_⟩
          rwa [Nat.add_right_comm, Nat.add_assoc] at hformat

theorem oneLine_histogramRow {percent : Nat → Nat → String} {total n : Nat} {label : String}
    (hpercent : OneLine (percent n total)) (hlabel : OneLine label) :
    OneLine (histogramRow percent total label n) := by
  have hstart : OneLine ("  " ++ padRight 18 label ++ " " ++ padLeft 4 (toString n)) :=
    (((show OneLine "  " by decide).append (hlabel.padRight 18)).append (by decide)).append
      ((oneLine_nat n).padLeft 4)
  exact ((hstart.append (by decide)).append (hpercent.padLeft 5)).append (by decide)

theorem oneLine_histogramHeader {percent : Nat → Nat → String} (h : StageHistogram)
    (hpercent : ∀ n total, OneLine (percent n total)) :
    ∀ line ∈ histogramHeader percent h, OneLine line := by
  have hrow : ∀ label n, OneLine label → OneLine (histogramRow percent h.total label n) :=
    fun label n hlabel => oneLine_histogramRow (hpercent _ _) hlabel
  have htitle : OneLine ("── Stage histogram (N=" ++ toString h.total ++ ") ────────────────") :=
    ((show OneLine "── Stage histogram (N=" by decide).append (oneLine_nat _)).append (by decide)
  intro line hline
  simp only [histogramHeader, List.mem_cons, List.not_mem_nil, or_false] at hline
  rcases hline with rfl | rfl | rfl | rfl | rfl | rfl | rfl | rfl
  · exact htitle
  · exact hrow _ _ (by decide)
  · exact hrow _ _ (by decide)
  · exact hrow _ _ (by decide)
  · exact hrow _ _ (by decide)
  · exact hrow _ _ (by decide)
  · decide
  · decide

/-- Lines that are each ended by a line feed. -/
theorem toList_join_lines (lines : List String) :
    (String.join (lines.map (· ++ "\n"))).toList
      = (lines.map String.toList).flatMap (· ++ ['\n']) := by
  rw [String.toList_join, List.flatMap_map, List.flatMap_map]
  simp

/-- **The table has one line for each run**: whatever the answers and error messages look like,
splitting the table at its line feeds gives the eight lines of its head and then the line of each
outcome, in order. -/
theorem histogram_one_line_each {t : Target} {percent : Nat → Nat → String}
    (hpercent : ∀ n total, OneLine (percent n total)) {h : StageHistogram}
    {outcomes : List GenerateCompileOutcome} {text : String}
    (htext : formatHistogram t percent h outcomes = .ok text) :
    ∃ lines : List String, lines.length = outcomes.length ∧
      (∀ i o, outcomes[i]? = some o → ∃ line, lines[i]? = some line ∧
        formatOutcomeLine t (i + 1) o = .ok line) ∧
      text.toList.splitOn '\n'
        = (histogramHeader percent h ++ lines).map String.toList ++ [[]] := by
  obtain ⟨lines, hlines, htext⟩ := Run.bind_eq_ok htext
  obtain rfl := Except.ok.inj htext
  obtain ⟨hlength, honeLine, hformat⟩ := outcomeLines_ok hlines
  refine ⟨lines, hlength, ?_, ?_⟩
  · intro i o ho
    obtain ⟨line, hline, hline'⟩ := hformat i o ho
    rw [Nat.add_comm] at hline'
    exact ⟨line, hline, hline'⟩
  · rw [toList_join_lines]
    apply Split.splitOn_flatMap_concat
    intro line hline
    obtain ⟨s, hs, rfl⟩ := List.mem_map.mp hline
    rcases List.mem_append.mp hs with hs | hs
    · exact oneLine_histogramHeader h hpercent s hs
    · exact honeLine s hs

/-- A table with an error that takes two lines. -/
theorem histogram_one_line_each_add :
    let outcomes : List GenerateCompileOutcome :=
      [⟨.verify, some "Verify error: first\nsecond", some "x", ⟨1, 2⟩, 7⟩]
    ∃ text, formatHistogram Target.host64 (fun _ _ => "100.0") (.fromOutcomes outcomes) outcomes
        = .ok text ∧
      ∃ lines : List String, lines.length = 1 ∧
        (∀ i o, outcomes[i]? = some o → ∃ line, lines[i]? = some line ∧
          formatOutcomeLine Target.host64 (i + 1) o = .ok line) ∧
        text.toList.splitOn '\n'
          = (histogramHeader (fun _ _ => "100.0") (.fromOutcomes outcomes) ++ lines).map
            String.toList ++ [[]] := by
  intro outcomes
  have hpercent : ∀ n total : Nat, OneLine "100.0" := fun _ _ => by decide
  obtain ⟨text, htext⟩ : ∃ text, formatHistogram Target.host64 (fun _ _ => "100.0")
      (.fromOutcomes outcomes) outcomes = .ok text := ⟨_, rfl⟩
  exact ⟨text, htext, histogram_one_line_each hpercent htext⟩

/-! ## The batch and the retry loop -/

section Agreement

open RetryLoop

variable {C : ProvenoCrates} {w : Session C} {api : Nat → Api} {client : LlmClient}
  {system : String}

/-- An error of the machine. -/
theorem executeUnder_stage {program : C.Program} {input : C.Value} {config : VmConfig}
    {host : C.Host} {policy : Option C.Policy} {err : PipelineError C.Value}
    (h : executeUnder C program input config host policy = .error err) : err.stage = .runtime := by
  have hmap : ∀ host', (C.execute config host' program input).mapError
      (fun e => PipelineError.runtime (formatVmError C e) e) = .error err →
      err.stage = .runtime := by
    intro host' h
    cases hrun : C.execute config host' program input with
    | ok output =>
        rw [hrun] at h
        cases h
    | error e =>
        rw [hrun] at h
        obtain rfl := Except.error.inj h
        rfl
  cases policy with
  | none => exact hmap host h
  | some policy => exact hmap (C.policyHost host policy) h

/-- The first call of a run, and where the run ends if it fails. -/
theorem retryMain_first (hcount : w.maxRetries + 1 < 2 ^ w.target.bits) :
    (retryMain w).1[0]? = some [⟨"user", w.task⟩] ∧
      ∀ e, w.generate 1 [⟨"user", w.task⟩] = .error e →
        retryMain w = ([[⟨"user", w.task⟩]], .exited s!"error: LLM generation failed: {e}") := by
  have hmain : retryMain w = retryLoop w (w.maxRetries + 1) 1 [⟨"user", w.task⟩] ⟨0, 0⟩ := by
    rw [retryMain, usizeAdd_ok hcount]
  rw [hmain, retryLoop]
  constructor
  · cases attemptOnce w 1 [⟨"user", w.task⟩] ⟨0, 0⟩ <;> rfl
  · intro e he
    have honce : attemptOnce w 1 [⟨"user", w.task⟩] ⟨0, 0⟩
        = .ends (.exited s!"error: LLM generation failed: {e}") := by
      rw [attemptOnce, he]
    rw [honce]

/-- **What the outcome of a run of the batch says about the retry loop**: both send the same
request, a failing model ends the loop with the error of the outcome, and a second request of the
loop shows the model the source and the error of the outcome, or the program has compiled and then
failed to run. -/
structure PredictsFirstAttempt (w : Session C) (api : Nat → Api) (client : LlmClient)
    (system : String) (o : GenerateCompileOutcome) : Prop where
  request : (runRequests w api client system)[0]?
    = some (client.request system [⟨"user", w.task⟩])
  generate : o.stage = .generate → ∃ text, o.error = some text ∧
    (runRequests w api client system).length = 1 ∧
    (retryMain (w.over api client system)).2 = .exited s!"error: LLM generation failed: {text}"
  again : ∀ r', (runRequests w api client system)[1]? = some r' → ∃ raw err,
    o.source = some (stripCodeFences raw) ∧
    r'.body.conversation = [⟨"system", system⟩, ⟨"user", w.task⟩, ⟨"assistant", raw⟩,
      ⟨"user", formatErrorForRetry (stripCodeFences raw) (err : PipelineError C.Value)⟩] ∧
    if o.stage = .compiled then err.stage = .runtime
    else err.stage = o.stage ∧ o.error = some err.text

/-- **A run of the batch shows what the first attempt of the retry loop meets.** -/
theorem batch_predicts_first_attempt (hcount : w.maxRetries + 1 < 2 ^ w.target.bits)
    (latencyMs : Nat) :
    PredictsFirstAttempt w api client system
      (generateAndCompile w.lua client system w.task (api 1) latencyMs) := by
  obtain ⟨hfirst, hfails⟩ := retryMain_first (w := w.over api client system) hcount
  have hrequest : (runRequests w api client system)[0]?
      = some (client.request system [⟨"user", w.task⟩]) := by
    show ((retryMain (w.over api client system)).1.map _)[0]? = _
    rw [List.getElem?_map, hfirst]
    rfl
  refine ⟨hrequest, ?_, ?_⟩
  · intro hstage
    cases hgenerate : client.generate (api 1) system [⟨"user", w.task⟩] with
    | error e =>
        have herror : (w.over api client system).generate 1 [⟨"user", w.task⟩]
            = .error e.text := by
          show (client.generate (api 1) system [⟨"user", w.task⟩]).mapError _ = _
          rw [hgenerate]
          rfl
        have hmain := hfails e.text herror
        refine ⟨e.text, by simp [generateAndCompile, hgenerate], ?_, congrArg Prod.snd hmain⟩
        show ((retryMain (w.over api client system)).1.map _).length = 1
        rw [List.length_map, hmain]
        rfl
    | ok response =>
        -- an answer is compiled, which is another stage
        have hsource := (generateAndCompile_outcome (api 1) latencyMs).source.mpr hstage
        rw [generateAndCompile_ok hgenerate] at hsource
        split at hsource <;> cases hsource
  · intro r' hr'
    obtain ⟨xs, x, hxs, hr, hgenerated, hwent, hnext⟩ := runRequests_next hcount hrequest hr'
    obtain rfl := List.eq_nil_of_length_eq_zero hxs
    have ho : generateAndCompile w.lua client system w.task (api 1) latencyMs = _ :=
      generateAndCompile_ok (over_generate hgenerated) latencyMs
    refine ⟨x.response.text, x.error, ?_, ?_, ?_⟩
    · rw [ho]
      split <;> rfl
    · rw [hnext, client.request_conversation]
      rfl
    · rcases hwent with hcompile | ⟨program, hcompile, hexecute⟩
      · obtain ⟨-, hcompiled, -⟩ := compileAndVerify_stage hcompile
        have hcompile' : compileAndVerify w.lua (stripCodeFences x.response.text)
            = .error x.error := hcompile
        rw [ho, hcompile', if_neg hcompiled]
        exact ⟨rfl, rfl⟩
      · have hcompile' : compileAndVerify w.lua (stripCodeFences x.response.text)
            = .ok program := hcompile
        rw [ho, hcompile']
        exact executeUnder_stage hexecute

theorem batch_predicts_first_attempt_add :
    PredictsFirstAttempt (addSession true ⟨0, 0⟩ ⟨0, 0⟩) forgetfulApi anthropicClient "Write Lua."
      (generateAndCompile plainCompiler anthropicClient "Write Lua." "add one and two"
        (forgetfulApi 1) 850) :=
  batch_predicts_first_attempt (w := addSession true ⟨0, 0⟩ ⟨0, 0⟩) (by decide) 850

end Agreement

end ProvenoOracle
