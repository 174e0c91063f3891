import ProvenoOracle.Effect.Fallible
import ProvenoOracle.Rust.Str

/-! # What the orchestrator is given

The orchestrator runs Lua programs on a virtual machine, commits to what happened and has it
proven. The machine, its hosts and policies, the commitments and the provers live in other
repositories (`proveno`, `proveno_zk`, `proveno_witness`, `proveno_noir`); here they are one
record, `ProvenoCrates`.

What a call can find or fail at while it runs is the record `Env`: file-system errors, the host
binary, the Noir prover, and the policy document under a `--policy` argument at that moment. The
files of the proof output directory are the state that a call works on.
-/

set_option autoImplicit false

namespace ProvenoOracle

open Effect

/-! ## Data -/

/-- `VmConfig`: the limits of a run. -/
structure VmConfig where
  gasLimit : UInt64
  memoryLimitBytes : UInt64
  maxToolCalls : Nat
  maxToolBytesIn : Nat
  deriving DecidableEq

/-- `VmError` -/
inductive VmError (Value : Type) where
  | gasExhausted
  | memoryExhausted
  | callDepthExceeded
  | typeError (msg : String)
  | runtimeError (val : Value)
  | toolError (msg : String)
  | outputExceeded
  | withLine (line : Nat) (inner : VmError Value)

/-- `PublicInputs`: the commitments of a proof. -/
structure PublicInputs where
  programHash : ByteArr 32
  inputHash : ByteArr 32
  toolResponsesHash : ByteArr 32
  outputHash : ByteArr 32
  attestationHash : ByteArr 32
  policyHash : ByteArr 32
  deriving DecidableEq

/-- `[0u8; 32]` -/
def zero32 : ByteArr 32 := ⟨List.replicate 32 0, by simp⟩

/-- `DryRunResult` -/
structure DryRunResult (Output Tape : Type) where
  output : Output
  oracleTape : Tape
  attestations : List Bytes
  publicInputs : PublicInputs

/-- `GuestInput`: what the OpenVM guest replays. -/
structure GuestInput (Program Value Tape : Type) where
  program : Program
  input : Value
  oracleTape : Tape
  config : VmConfig
  attestations : List Bytes
  policyCanonical : Option Bytes

/-- `GuestInput::new`: no policy is attached yet. -/
def GuestInput.new {Program Value Tape : Type} (program : Program) (input : Value) (tape : Tape)
    (config : VmConfig) (attestations : List Bytes) : GuestInput Program Value Tape :=
  ⟨program, input, tape, config, attestations, none⟩

/-- `GuestInput::with_policy_canonical` -/
def GuestInput.withPolicyCanonical {Program Value Tape : Type}
    (g : GuestInput Program Value Tape) (bytes : Bytes) : GuestInput Program Value Tape :=
  { g with policyCanonical := some bytes }

/-- `ProveOptions` of the Noir prover. -/
structure ProveOptions where
  circuitDir : String
  doVerify : Bool

/-- What `prove_from_artifacts` returns. -/
structure NoirOutput where
  numSteps : UInt32
  returnValue : Int64
  proofBytes : Bytes
  proveDurationMs : Nat
  verified : Bool

/-! ## The crates -/

/-- The external crates of the orchestrator. -/
structure ProvenoCrates where
  /-- `LuaValue` -/
  Value : Type
  /-- `CompiledProgram` -/
  Program : Type
  /-- `ToolCallRecord` -/
  Record : Type
  /-- `VmOutput` -/
  Output : Type
  /-- `OracleTape` -/
  Tape : Type
  /-- `OraclePolicy` -/
  Policy : Type
  /-- A `HostInterface`, with everything it will answer. -/
  Host : Type
  /-- `LuaValue::Nil` -/
  nil : Value
  /-- `Display` of a value. -/
  displayValue : Value → String
  programHash : Program → ByteArr 32
  transcript : Output → List Record
  /-- `OracleTape::from_records` -/
  fromRecords : List Record → Tape
  /-- `VmConfig::default` -/
  defaultConfig : VmConfig
  /-- `Vm::new(config, host).execute(program, input)` -/
  execute : VmConfig → Host → Program → Value → Except (VmError Value) Output
  /-- `OraclePolicyHost::new` -/
  policyHost : Host → Policy → Host
  /-- `OraclePolicy::canonical_bytes` -/
  canonicalBytes : Policy → Bytes
  /-- `OraclePolicy::policy_hash` -/
  policyHash : Policy → ByteArr 32
  /-- `compute_public_inputs` -/
  computePublicInputs : ByteArr 32 → Value → Tape → Output → PublicInputs
  /-- `serde_json::to_string_pretty` on a program -/
  programToJson : Program → Except String String
  /-- `serde_json::from_str` on a program -/
  programFromJson : String → Except String Program
  /-- `serde_json::to_string_pretty` on a dry run result -/
  dryRunToJson : DryRunResult Output Tape → Except String String
  /-- `serde_json::from_str` on a dry run result -/
  dryRunFromJson : String → Except String (DryRunResult Output Tape)
  /-- `GuestInput::replay_public_inputs` -/
  replayPublicInputs : GuestInput Program Value Tape → Except String (Output × PublicInputs)

namespace ProvenoCrates

variable (C : ProvenoCrates)

/-- The oracle tape of a run. -/
def tape (output : C.Output) : C.Tape := C.fromRecords (C.transcript output)

abbrev DryRun : Type := DryRunResult C.Output C.Tape

abbrev Guest : Type := GuestInput C.Program C.Value C.Tape

end ProvenoCrates

/-! ## The environment of a call -/

/-- The files of an output directory. -/
abbrev OutputDir := String → Option Bytes

/-- What the OpenVM host binary answers. -/
structure HostOutput where
  success : Bool
  status : String
  stdout : String
  stderr : String
  durationMs : Nat

/-- What a call meets while it runs. -/
structure Env (C : ProvenoCrates) where
  /-- The error of creating the output directory. -/
  createDirError : Option String
  /-- For each file, the error of writing it and what the failed write leaves behind. -/
  writeError : String → Option (String × Option Bytes)
  /-- For each file, the error of reading it. -/
  readError : String → Option String
  /-- The host binary next to the current executable or one level up, if it is there. -/
  siblingHost : Option String
  /-- Running a program: it may fail to start, and it may change the files. -/
  runCommand : String → List String → OutputDir → Except String HostOutput × OutputDir
  /-- `OraclePolicy::load_spec`: a built-in profile, or the policy file as it is now. -/
  loadSpec : String → Except String C.Policy
  /-- `prove_from_artifacts` -/
  proveFromArtifacts : C.Program → C.DryRun → ProveOptions → Except String NoirOutput

/-- A call on the output directory. -/
abbrev Io (α : Type) := Fallible OutputDir String α

namespace Env

variable {C : ProvenoCrates} (env : Env C)

/-- `fs::create_dir_all` -/
def createDirAll (describe : String → String) : Io Unit :=
  match env.createDirError with
  | none => pure ()
  | some e => Fallible.fail (describe e)

/-- `fs::write` -/
def write (name : String) (contents : Bytes) (describe : String → String) : Io Unit :=
  match env.writeError name with
  | none => Fallible.modify fun dir => Function.update dir name (some contents)
  | some (e, left) => do
      Fallible.modify fun dir => Function.update dir name left
      Fallible.fail (describe e)

/-- `fs::read_to_string` -/
def readToString (name : String) (describe : String → String) : Io String := fun dir =>
  match env.readError name with
  | some e => (.error (describe e), dir)
  | none =>
      match dir name with
      | none => (.error (describe "No such file or directory (os error 2)"), dir)
      | some contents =>
          match strFromUtf8 contents with
          | none => (.error (describe "stream did not contain valid UTF-8"), dir)
          | some s => (.ok s, dir)

/-- `Command::new(program).args(args).output()` -/
def command (program : String) (args : List String) (describe : String → String) :
    Io HostOutput := fun dir =>
  match env.runCommand program args dir with
  | (.ok out, dir') => (.ok out, dir')
  | (.error e, dir') => (.error (describe e), dir')

/-! ### What a successful step has done -/

variable {env}

theorem createDirAll_ok {describe : String → String} {dir dir' : OutputDir}
    (h : env.createDirAll describe dir = (.ok (), dir')) : dir' = dir := by
  unfold createDirAll at h
  cases herr : env.createDirError with
  | none =>
      rw [herr] at h
      exact (Prod.mk.inj h).2.symm
  | some e =>
      rw [herr] at h
      cases h

theorem write_ok {name : String} {contents : Bytes} {describe : String → String}
    {dir dir' : OutputDir} (h : env.write name contents describe dir = (.ok (), dir')) :
    dir' = Function.update dir name (some contents) := by
  unfold write at h
  cases herr : env.writeError name with
  | none =>
      rw [herr] at h
      exact (Prod.mk.inj h).2.symm
  | some e =>
      rw [herr] at h
      cases h

theorem readToString_ok {name s : String} {describe : String → String} {dir dir' : OutputDir}
    (h : env.readToString name describe dir = (.ok s, dir')) :
    dir' = dir ∧ ∃ contents, dir name = some contents ∧ strFromUtf8 contents = some s := by
  unfold readToString at h
  split at h
  · cases h
  · split at h
    · cases h
    · next contents hname =>
      split at h
      · cases h
      · next s' hs =>
        cases h
        exact ⟨rfl, contents, hname, hs⟩

theorem command_ok {program : String} {args : List String} {describe : String → String}
    {out : HostOutput} {dir dir' : OutputDir}
    (h : env.command program args describe dir = (.ok out, dir')) :
    env.runCommand program args dir = (.ok out, dir') := by
  unfold command at h
  split at h
  · next heq =>
    cases h
    exact heq
  · cases h

end Env

end ProvenoOracle
