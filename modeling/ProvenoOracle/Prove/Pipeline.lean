import ProvenoOracle.Prove.Artifacts

/-! # Running and proving one program

`pipeline.rs` executes a program, with or without a policy; `main.rs` sets the limits from the
command line, loads the policy, executes, and hands the output to the chosen proving backend.
A `PolicyRun` is one such passage through `main`, from the policy argument to the artifacts.
-/

set_option autoImplicit false

namespace ProvenoOracle

/-! ## Execution -/

/-- `PipelineError` -/
inductive PipelineError (Value : Type) where
  | parse (msg : String)
  | compile (msg : String)
  | verify (msg : String)
  | runtime (msg : String) (err : VmError Value)

section Execution

variable (C : ProvenoCrates)

/-- `format_vm_error` -/
def formatVmError : VmError C.Value → String
  | .gasExhausted => "Gas limit exceeded — program too expensive"
  | .memoryExhausted => "Memory limit exceeded"
  | .callDepthExceeded => "Call depth exceeded — too much recursion"
  | .typeError msg => s!"Type error: {msg}"
  | .runtimeError val => s!"Runtime error: {C.displayValue val}"
  | .toolError msg => s!"Tool error: {msg}"
  | .outputExceeded => "Output size exceeded"
  | .withLine line inner => s!"Error at line {line}: {formatVmError inner}"

/-- `execute` -/
def execute (program : C.Program) (input : C.Value) (config : VmConfig) (host : C.Host) :
    Except (PipelineError C.Value) C.Output :=
  (C.execute config host program input).mapError fun e => .runtime (formatVmError C e) e

/-- `execute_with_policy`: the same, on a host that enforces the policy. -/
def executeWithPolicy (program : C.Program) (input : C.Value) (config : VmConfig)
    (host : C.Host) (policy : C.Policy) : Except (PipelineError C.Value) C.Output :=
  (C.execute config (C.policyHost host policy) program input).mapError
    fun e => .runtime (formatVmError C e) e

/-- The call that `main` makes: with the policy if there is one. -/
def executeUnder (program : C.Program) (input : C.Value) (config : VmConfig) (host : C.Host) :
    Option C.Policy → Except (PipelineError C.Value) C.Output
  | some policy => executeWithPolicy C program input config host policy
  | none => execute C program input config host

variable {C}

/-- Either call runs the machine on some host. -/
theorem executeUnder_ok {program : C.Program} {input : C.Value} {config : VmConfig}
    {host : C.Host} {policy : Option C.Policy} {output : C.Output}
    (h : executeUnder C program input config host policy = .ok output) :
    ∃ host', C.execute config host' program input = .ok output := by
  have hmap : ∀ host', (C.execute config host' program input).mapError
      (fun e => PipelineError.runtime (formatVmError C e) e) = .ok output →
        C.execute config host' program input = .ok output := by
    intro host' hmapped
    cases hexec : C.execute config host' program input with
    | error e =>
        rw [hexec] at hmapped
        cases hmapped
    | ok o =>
        rw [hexec] at hmapped
        cases hmapped
        rfl
  cases policy with
  | none => exact ⟨host, hmap host h⟩
  | some p => exact ⟨C.policyHost host p, hmap _ h⟩

end Execution

/-! ## The command line -/

/-- The options that bear on execution and proving. -/
structure Cli where
  gasLimit : Option UInt64
  maxToolBytesIn : Option Nat
  maxToolCalls : Option Nat
  policy : Option String
  backend : String
  openvmLevel : String
  proveOutput : String
  circuitDir : String

/-- The limits of the run: the defaults, with the given ones in their place. -/
def Cli.config (cli : Cli) (default : VmConfig) : VmConfig :=
  { default with
    gasLimit := cli.gasLimit.getD default.gasLimit
    maxToolBytesIn := cli.maxToolBytesIn.getD default.maxToolBytesIn
    maxToolCalls := cli.maxToolCalls.getD default.maxToolCalls }

/-- The two proving backends. -/
inductive Backend where
  | noir
  | openvm
  deriving DecidableEq

/-- `--backend`; any other name ends the program. -/
def Backend.ofName : String → Option Backend
  | "noir" => some .noir
  | "openvm" => some .openvm
  | _ => none

/-- The call that `main` makes to prove a run. -/
def proveWith (C : ProvenoCrates) (env : Env C) (cli : Cli) (program : C.Program)
    (source : String) (output : C.Output) : Backend → Io ProveArtifacts
  | .openvm =>
      buildProofArtifactsWithOpenvm C env program source C.nil output []
        ⟨cli.proveOutput, cli.openvmLevel, cli.policy⟩
  | .noir =>
      buildProofArtifactsWithNoir C env program source C.nil output [] cli.proveOutput
        cli.circuitDir

/-- **A proven run under a policy**: `main` loads the policy, executes under it, and the backend
returns artifacts. The policy document is looked up at the start, and the environment may be
another one by the time of proving. -/
structure PolicyRun (C : ProvenoCrates) where
  cli : Cli
  spec : String
  start : Env C
  later : Env C
  policy : C.Policy
  backend : Backend
  program : C.Program
  source : String
  host : C.Host
  output : C.Output
  before : OutputDir
  after : OutputDir
  artifacts : ProveArtifacts
  given : cli.policy = some spec
  named : Backend.ofName cli.backend = some backend
  loaded : start.loadSpec spec = .ok policy
  executed : executeWithPolicy C program C.nil (cli.config C.defaultConfig) host policy = .ok output
  proved : proveWith C later cli program source output backend before = (.ok artifacts, after)

end ProvenoOracle
