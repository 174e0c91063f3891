import ProvenoOracle.Prove.Pipeline

/-! # A machine that can be run

`ProvenoCrates` and an `Env` that can be evaluated: a machine whose programs use a fixed amount
of gas and return a fixed number, two built-in policy profiles, and an environment in which no
step fails. The policy hash is SHA-256 of the profile's document; the Poseidon2 scheme of the
Noir path leaves it zero, as the source describes it.
-/

set_option autoImplicit false

namespace ProvenoOracle

open Codec

/-! ## Programs -/

/-- A program without tool calls: the gas it uses and the number it returns. -/
structure PlainProgram where
  gas : UInt64
  result : Int64
  deriving DecidableEq

/-- `return 1 + 2` -/
def addProgram : PlainProgram := ⟨4, 3⟩

/-- A loop whose gas is above the default limit. -/
def loopProgram : PlainProgram := ⟨300000, 0⟩

/-- The output of a `PlainProgram`. -/
structure PlainOutput where
  result : Int64
  gasUsed : UInt64
  deriving DecidableEq

def PlainProgram.output (p : PlainProgram) : PlainOutput := ⟨p.result, p.gas⟩

/-- The hash of a program, for programs that differ in their gas. -/
def PlainProgram.hash (p : PlainProgram) : ByteArr 32 :=
  ⟨toBeBytes 32 p.gas.toNat, toBeBytes_length _ _⟩

/-- Public inputs that commit to the program and the policy. -/
def plainPublicInputs (p : PlainProgram) (policyHash : ByteArr 32) : PublicInputs :=
  ⟨p.hash, zero32, zero32, zero32, zero32, policyHash⟩

/-- Looking up a value by its text. -/
def parseKnown {α : Type} (known : List α) (text : α → String) (s : String) : Except String α :=
  match known.find? fun a => text a = s with
  | some a => .ok a
  | none => .error "unknown document"

/-- Printing a value that can be looked up again. -/
def printKnown {α : Type} [DecidableEq α] (known : List α) (text : α → String) (a : α) :
    Except String String :=
  if a ∈ known then .ok (text a) else .error "not serializable"

def PlainProgram.text (p : PlainProgram) : String := s!"[{p.gas},{p.result}]"

/-- The dry run result of a `PlainProgram` in the Noir scheme. -/
def PlainProgram.dryRun (p : PlainProgram) : DryRunResult PlainOutput Unit :=
  ⟨p.output, (), [], plainPublicInputs p zero32⟩

deriving instance DecidableEq for DryRunResult

def dryRunText (d : DryRunResult PlainOutput Unit) : String :=
  s!"[{d.output.gasUsed},{d.output.result},[]]"

/-! ## Policies -/

/-- The built-in policy profiles. -/
inductive Profile where
  | constrainedHttpV1
  | templatePriceFeedV1
  deriving DecidableEq

def Profile.name : Profile → String
  | .constrainedHttpV1 => "constrained_http_v1"
  | .templatePriceFeedV1 => "template_price_feed_v1"

def Profile.canonical (p : Profile) : Bytes :=
  strBytes ("\x7b\"profile\":\"" ++ p.name ++ "\"\x7d")

/-- SHA-256 of the canonical document. -/
def Profile.hash : Profile → ByteArr 32
  | .constrainedHttpV1 =>
      ⟨toBeBytes 32 0x5378ad2a53acd4da4891f44358d4ea971698b7dedf730bdd0825a2e2d6ef5527,
        toBeBytes_length _ _⟩
  | .templatePriceFeedV1 =>
      ⟨toBeBytes 32 0x035f6c06787254267e2e7e0b51e0880086ec126bea70e450c5b041ff9367fec4,
        toBeBytes_length _ _⟩

def profiles : List Profile := [.constrainedHttpV1, .templatePriceFeedV1]

/-- The hash of a canonical document that the guest is given. -/
def canonicalHash (bytes : Bytes) : ByteArr 32 :=
  ((profiles.find? fun p => p.canonical = bytes).map Profile.hash).getD zero32

def loadProfile (spec : String) : Except String Profile :=
  parseKnown profiles Profile.name spec

theorem loadProfile_name (p : Profile) : loadProfile p.name = .ok p := by
  cases p <;> decide +kernel

/-! ## The machine -/

/-- The gas that a run of the program needs is within the limit. -/
def PlainProgram.within (config : VmConfig) (p : PlainProgram) : Prop := p.gas ≤ config.gasLimit

instance (config : VmConfig) (p : PlainProgram) : Decidable (p.within config) :=
  inferInstanceAs (Decidable (p.gas ≤ config.gasLimit))

/-- The policy hash that the guest derives from what is attached. -/
def attachedHash (policyCanonical : Option Bytes) : ByteArr 32 :=
  (policyCanonical.map canonicalHash).getD zero32

def plainExecute (config : VmConfig) (p : PlainProgram) : Except (VmError Unit) PlainOutput :=
  if p.within config then .ok p.output else .error .gasExhausted

def plainReplay (g : GuestInput PlainProgram Unit Unit) :
    Except String (PlainOutput × PublicInputs) :=
  if g.program.within g.config then
    .ok (g.program.output, plainPublicInputs g.program (attachedHash g.policyCanonical))
  else .error "GasExhausted"

theorem plainReplay_of_within {g : GuestInput PlainProgram Unit Unit}
    (h : g.program.within g.config) :
    plainReplay g
      = .ok (g.program.output, plainPublicInputs g.program (attachedHash g.policyCanonical)) :=
  if_pos h

theorem plainReplay_of_not_within {g : GuestInput PlainProgram Unit Unit}
    (h : ¬g.program.within g.config) : plainReplay g = .error "GasExhausted" :=
  if_neg h

theorem plainExecute_ok {config : VmConfig} {p : PlainProgram} {output : PlainOutput}
    (h : plainExecute config p = .ok output) : p.within config ∧ output = p.output := by
  unfold plainExecute at h
  split at h
  · next hwithin => exact ⟨hwithin, (Except.ok.inj h).symm⟩
  · cases h

def plainCrates : ProvenoCrates where
  Value := Unit
  Program := PlainProgram
  Record := Unit
  Output := PlainOutput
  Tape := Unit
  Policy := Profile
  Host := Unit
  nil := ()
  displayValue _ := "nil"
  programHash := PlainProgram.hash
  transcript _ := []
  fromRecords _ := ()
  defaultConfig := ⟨200000, 16777216, 16, 65536⟩
  execute config _ p _ := plainExecute config p
  policyHost host _ := host
  canonicalBytes := Profile.canonical
  policyHash := Profile.hash
  computePublicInputs h _ _ _ := ⟨h, zero32, zero32, zero32, zero32, zero32⟩
  programToJson := printKnown [addProgram, loopProgram] PlainProgram.text
  programFromJson := parseKnown [addProgram, loopProgram] PlainProgram.text
  dryRunToJson := printKnown [addProgram.dryRun, loopProgram.dryRun] dryRunText
  dryRunFromJson := parseKnown [addProgram.dryRun, loopProgram.dryRun] dryRunText
  replayPublicInputs := plainReplay

/-- The host binary: it writes its input and the proof, and reports success. -/
def plainHost (args : List String) (dir : OutputDir) : Except String HostOutput × OutputDir :=
  (.ok ⟨true, "exit status: 0", "Revealed digest: 00\nproof generated and verified\n", "", 9000⟩,
    Function.update (Function.update dir "openvm_input.json" (some (strBytes (args.headD ""))))
      "openvm.app.proof" (some [1]))

/-- An environment in which no step fails. -/
def quietEnv : Env plainCrates where
  createDirError := none
  writeError _ := none
  readError _ := none
  siblingHost := some "target/release/proveno-openvm-host"
  runCommand _ := plainHost
  loadSpec := loadProfile
  proveFromArtifacts _ d _ := .ok ⟨7, d.output.result, [0xaa], 1234, true⟩

/-! ## Runs -/

/-- The value of a call that succeeds. -/
def okValue {α : Type} (x : Except String α × OutputDir) (h : x.1.isOk = true) : α :=
  match x, h with
  | (.ok a, _), _ => a

theorem eq_okValue {α : Type} (x : Except String α × OutputDir) (h : x.1.isOk = true) :
    x = (.ok (okValue x h), x.2) := by
  rcases x with ⟨e | a, dir⟩
  · cases h
  · rfl

/-- A command line without limits. -/
def plainCli (backend : String) (policy : Option String) : Cli :=
  ⟨none, none, none, policy, backend, "app", "proof-output", "noir"⟩

def Backend.name : Backend → String
  | .noir => "noir"
  | .openvm => "openvm"

/-- `return 1 + 2`, executed under a profile and proven. -/
def addRun (b : Backend) (p : Profile) : PolicyRun plainCrates where
  cli := plainCli b.name (some p.name)
  spec := p.name
  start := quietEnv
  later := quietEnv
  policy := p
  backend := b
  program := addProgram
  source := "return 1 + 2"
  host := ()
  output := addProgram.output
  before := fun _ => none
  after := (proveWith plainCrates quietEnv (plainCli b.name (some p.name)) addProgram
    "return 1 + 2" addProgram.output b fun _ => none).2
  artifacts := okValue (proveWith plainCrates quietEnv (plainCli b.name (some p.name)) addProgram
    "return 1 + 2" addProgram.output b fun _ => none) (by cases b <;> cases p <;> decide +kernel)
  given := rfl
  named := by cases b <;> rfl
  loaded := loadProfile_name p
  executed := rfl
  proved := eq_okValue _ _

end ProvenoOracle
