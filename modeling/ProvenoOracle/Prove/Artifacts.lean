import ProvenoOracle.Codec.BigEndian
import ProvenoOracle.Prove.Crates

/-! # Proof artifacts

`prove.rs`: from a completed run to the files of the output directory and a proof.
`build_proof_artifacts` writes the program and the dry run; the two backends go on from there.
The OpenVM backend runs a host binary over the files, reads them back, and replays the run to
learn the public inputs that its proof commits; the Noir backend proves in process and lists its
public inputs as eight words.
-/

set_option autoImplicit false

namespace ProvenoOracle

open Codec Effect

/-! ## Words -/

/-- `{b:02x}` -/
def hexByte (b : UInt8) : List Char := [Nat.digitChar (b.toNat / 16), Nat.digitChar (b.toNat % 16)]

/-- `bytes32_hex`: 0x-prefixed 32-byte hex. -/
def bytes32Hex (bytes : ByteArr 32) : String :=
  String.ofList ('0' :: 'x' :: bytes.val.flatMap hexByte)

/-- `u32_to_bytes32_hex`: left-padded to 32 bytes, big-endian. -/
def u32ToBytes32Hex (v : UInt32) : String :=
  bytes32Hex ⟨List.replicate 28 0 ++ toBeBytes 4 v.toNat, by simp [toBeBytes_length]⟩

/-- `i64_to_bytes32_hex`: sign-extended to 32 bytes, big-endian. -/
def i64ToBytes32Hex (v : Int64) : String :=
  let fill : UInt8 := if v < 0 then 0xff else 0x00
  bytes32Hex ⟨List.replicate 24 fill ++ toBeBytes 8 v.toUInt64.toNat, by simp [toBeBytes_length]⟩

/-! ## Results -/

/-- `OpenVmProveSummary` -/
structure OpenVmProveSummary where
  level : String
  proofPath : String
  digest : String
  proveDurationMs : Nat
  verified : Bool

/-- `NoirProveSummary`. The words are in circuit-declaration order: number of steps, program
hash, return value, tool responses hash, input hash, output hash, attestation hash, policy
hash. -/
structure NoirProveSummary where
  proofBytes : Bytes
  publicInputsHex : Vector String 8
  proveDurationMs : Nat
  verified : Bool

/-- `ProveArtifacts` -/
structure ProveArtifacts where
  sourcePath : String
  compiledPath : String
  dryResultPath : String
  publicInputs : PublicInputs
  noirProof : Option NoirProveSummary
  openvmProof : Option OpenVmProveSummary

/-! ## The files -/

/-- `PathBuf::from(dir).join(name)`, for a relative name. -/
def joinPath (dir name : String) : String :=
  if dir.isEmpty || dir.endsWith "/" then dir ++ name else dir ++ "/" ++ name

variable (C : ProvenoCrates) (env : Env C)

/-- The dry run result of a completed run. -/
def dryRunResult (program : C.Program) (input : C.Value) (output : C.Output)
    (attestations : List Bytes) : C.DryRun :=
  { output := output
    oracleTape := C.tape output
    attestations := attestations
    publicInputs := C.computePublicInputs (C.programHash program) input (C.tape output) output }

/-- `build_proof_artifacts` -/
def buildProofArtifacts (program : C.Program) (source : String) (input : C.Value)
    (output : C.Output) (attestations : List Bytes) (outputDir : String) : Io ProveArtifacts := do
  let result := dryRunResult C program input output attestations
  env.createDirAll fun e => s!"failed to create output directory: {e}"
  let sourcePath := joinPath outputDir "program.lua"
  env.write "program.lua" (strBytes source) fun e => s!"failed to write {sourcePath}: {e}"
  let compiledPath := joinPath outputDir "compiled.json"
  let compiledJson ← Fallible.ofExcept
    (fun e => s!"failed to serialize compiled program: {e}") (C.programToJson program)
  env.write "compiled.json" (strBytes compiledJson) fun e => s!"failed to write {compiledPath}: {e}"
  let dryResultPath := joinPath outputDir "dry_result.json"
  let dryResultJson ← Fallible.ofExcept
    (fun e => s!"failed to serialize dry run result: {e}") (C.dryRunToJson result)
  env.write "dry_result.json" (strBytes dryResultJson)
    fun e => s!"failed to write {dryResultPath}: {e}"
  return {
    sourcePath := sourcePath
    compiledPath := compiledPath
    dryResultPath := dryResultPath
    publicInputs := result.publicInputs
    noirProof := none
    openvmProof := none }

/-! ## The OpenVM backend -/

/-- `OpenVmOptions` -/
structure OpenVmOptions where
  outputDir : String
  level : String
  policySpec : Option String

/-- `openvm_host_command`: the sibling binary, or `cargo run`. -/
def openvmHostCommand (args : List String) : String × List String :=
  match env.siblingHost with
  | some sibling => (sibling, args)
  | none => ("cargo", ["run", "-q", "-p", "proveno-openvm-host", "--"] ++ args)

/-- The arguments of the host binary. -/
def openvmArgs (artifacts : ProveArtifacts) (opts : OpenVmOptions) : List String :=
  [artifacts.compiledPath, artifacts.dryResultPath,
    "--out", joinPath opts.outputDir "openvm_input.json",
    "--proof", joinPath opts.outputDir s!"openvm.{opts.level}.proof",
    "--prove"]
  ++ (if opts.level = "stark" then ["--stark"] else [])
  ++ (match opts.policySpec with
    | some spec => ["--policy", spec]
    | none => [])

/-- The digest line of the host's output. -/
def revealedDigest (stdout : String) : String :=
  strTrim (((strLines stdout).findSome? fun l => stripPrefix l "Revealed digest: ").getD "")

/-- The guest input that `build_proof_artifacts_with_openvm` rebuilds from the files, once the
host has succeeded. -/
def readGuestInput (input : C.Value) (artifacts : ProveArtifacts) (opts : OpenVmOptions) :
    Io C.Guest := do
  let dryJson ← env.readToString "dry_result.json"
    fun e => s!"failed to read {artifacts.dryResultPath}: {e}"
  let dry ← Fallible.ofExcept
    (fun e => s!"failed to parse dry_result.json: {e}") (C.dryRunFromJson dryJson)
  let compiledJson ← env.readToString "compiled.json" fun e => s!"failed to read compiled.json: {e}"
  let compiled ← Fallible.ofExcept
    (fun e => s!"failed to parse compiled.json: {e}") (C.programFromJson compiledJson)
  let guestInput := GuestInput.new compiled input dry.oracleTape C.defaultConfig []
  match opts.policySpec with
  | none => return guestInput
  | some spec =>
      let policy ← Fallible.ofExcept (fun e => e) (env.loadSpec spec)
      return guestInput.withPolicyCanonical (C.canonicalBytes policy)

/-- The part of `build_proof_artifacts_with_openvm` before the replay: the files, the host, and
the guest input. -/
def proveAndReadBack (program : C.Program) (source : String) (input : C.Value)
    (output : C.Output) (attestations : List Bytes) (opts : OpenVmOptions) :
    Io (ProveArtifacts × HostOutput × C.Guest) := do
  let artifacts ← buildProofArtifacts C env program source input output attestations opts.outputDir
  let (programBin, args) := openvmHostCommand C env (openvmArgs artifacts opts)
  let out ← env.command programBin args fun e => s!"failed to run {programBin}: {e}"
  if !out.success then
    Fallible.fail s!"openvm proving failed ({out.status}): {strTrim out.stderr}"
  else
    let guestInput ← readGuestInput C env input artifacts opts
    return (artifacts, out, guestInput)

/-- `build_proof_artifacts_with_openvm` -/
def buildProofArtifactsWithOpenvm (program : C.Program) (source : String) (input : C.Value)
    (output : C.Output) (attestations : List Bytes) (opts : OpenVmOptions) :
    Io ProveArtifacts := do
  let (artifacts, out, guestInput) ←
    proveAndReadBack C env program source input output attestations opts
  -- the public inputs written above are the Noir scheme's; this proof commits the guest's
  let (_, pi) ← Fallible.ofExcept
    (fun e => s!"recomputing OpenVM public inputs: {e}") (C.replayPublicInputs guestInput)
  return { artifacts with
    publicInputs := pi
    openvmProof := some {
      level := opts.level
      proofPath := joinPath opts.outputDir s!"openvm.{opts.level}.proof"
      digest := revealedDigest out.stdout
      proveDurationMs := out.durationMs
      verified := strContains out.stdout "generated and verified" } }

/-! ## The Noir backend -/

/-- The eight words of `public_inputs_hex`. -/
def noirWords (pi : PublicInputs) (out : NoirOutput) : Vector String 8 :=
  #v[u32ToBytes32Hex out.numSteps,
    bytes32Hex pi.programHash,
    i64ToBytes32Hex out.returnValue,
    bytes32Hex pi.toolResponsesHash,
    bytes32Hex pi.inputHash,
    bytes32Hex pi.outputHash,
    bytes32Hex pi.attestationHash,
    bytes32Hex pi.policyHash]

/-- `build_proof_artifacts_with_noir` -/
def buildProofArtifactsWithNoir (program : C.Program) (source : String) (input : C.Value)
    (output : C.Output) (attestations : List Bytes) (outputDir circuitDir : String) :
    Io ProveArtifacts := do
  let artifacts ← buildProofArtifacts C env program source input output attestations outputDir
  let dryJson ← env.readToString "dry_result.json"
    fun e => s!"failed to read {artifacts.dryResultPath}: {e}"
  let dry ← Fallible.ofExcept
    (fun e => s!"failed to parse dry_result.json: {e}") (C.dryRunFromJson dryJson)
  let out ← Fallible.ofExcept
    (fun e => s!"noir proof generation failed: {e}")
    (env.proveFromArtifacts program dry ⟨circuitDir, true⟩)
  return { artifacts with
    noirProof := some {
      proofBytes := out.proofBytes
      publicInputsHex := noirWords artifacts.publicInputs out
      proveDurationMs := out.proveDurationMs
      verified := out.verified } }

/-! ## What a success has done

One lemma for each function, from the outside in: which files it has left, where the public
inputs come from, and what the guest input is made of. -/

variable {C env}

theorem joined_json_names : "dry_result.json" ≠ "compiled.json" := by decide

/-- The two JSON files are those of the run, the public inputs are the computed ones, and no file
but the three that are written has changed. -/
theorem buildProofArtifacts_ok {program : C.Program} {source : String} {input : C.Value}
    {output : C.Output} {attestations : List Bytes} {outputDir : String}
    {artifacts : ProveArtifacts} {dir dir' : OutputDir}
    (h : buildProofArtifacts C env program source input output attestations outputDir dir
      = (.ok artifacts, dir')) :
    artifacts.publicInputs = (dryRunResult C program input output attestations).publicInputs ∧
      (∃ j, C.programToJson program = .ok j ∧ dir' "compiled.json" = some (strBytes j)) ∧
      (∃ j, C.dryRunToJson (dryRunResult C program input output attestations) = .ok j ∧
        dir' "dry_result.json" = some (strBytes j)) ∧
      ∀ name, name ∉ ["program.lua", "compiled.json", "dry_result.json"] →
        dir' name = dir name := by
  -- one step of the source at a time
  obtain ⟨⟨⟩, dir₀, hcreate, h₁⟩ := Fallible.bind_ok_iff.mp h
  obtain ⟨⟨⟩, dir₁, hsource, h₂⟩ := Fallible.bind_ok_iff.mp h₁
  obtain ⟨compiledJson, dir₂, hprinted, h₃⟩ := Fallible.bind_ok_iff.mp h₂
  obtain ⟨⟨⟩, dir₃, hwrite, h₄⟩ := Fallible.bind_ok_iff.mp h₃
  obtain ⟨dryJson, dir₄, hserialized, h₅⟩ := Fallible.bind_ok_iff.mp h₄
  obtain ⟨⟨⟩, dir₅, hwrite', h₆⟩ := Fallible.bind_ok_iff.mp h₅
  obtain ⟨hcompiled, rfl⟩ := Fallible.ofExcept_ok_iff.mp hprinted
  obtain ⟨hdry, rfl⟩ := Fallible.ofExcept_ok_iff.mp hserialized
  obtain ⟨hartifacts, rfl⟩ := Prod.mk.inj h₆
  obtain rfl := Except.ok.inj hartifacts
  refine ⟨rfl, ⟨compiledJson, hcompiled, ?_⟩, ⟨dryJson, hdry, ?_⟩, ?_⟩
  · -- the later write is to the other file
    rw [Env.write_ok hwrite', Env.write_ok hwrite,
      Function.update_of_ne joined_json_names.symm, Function.update_self]
  · rw [Env.write_ok hwrite', Function.update_self]
  · intro name hname
    have hne : name ≠ "program.lua" ∧ name ≠ "compiled.json" ∧ name ≠ "dry_result.json" := by
      simpa using hname
    rw [Env.write_ok hwrite', Function.update_of_ne hne.2.2, Env.write_ok hwrite,
      Function.update_of_ne hne.2.1, Env.write_ok hsource, Function.update_of_ne hne.1,
      Env.createDirAll_ok hcreate]

/-- The guest input: program and tape from the files, the default limits, no attestations, and
the policy that the specification names now. -/
theorem readGuestInput_ok {input : C.Value} {artifacts : ProveArtifacts} {opts : OpenVmOptions}
    {guest : C.Guest} {dir dir' : OutputDir}
    (h : readGuestInput C env input artifacts opts dir = (.ok guest, dir')) :
    ∃ dryBytes compiledBytes dryJson compiledJson dry compiled,
      dir "dry_result.json" = some dryBytes ∧ strFromUtf8 dryBytes = some dryJson ∧
      C.dryRunFromJson dryJson = .ok dry ∧
      dir "compiled.json" = some compiledBytes ∧ strFromUtf8 compiledBytes = some compiledJson ∧
      C.programFromJson compiledJson = .ok compiled ∧
      guest.program = compiled ∧ guest.input = input ∧ guest.oracleTape = dry.oracleTape ∧
      guest.config = C.defaultConfig ∧ guest.attestations = [] ∧
      match opts.policySpec with
      | none => guest.policyCanonical = none
      | some spec => ∃ policy, env.loadSpec spec = .ok policy ∧
          guest.policyCanonical = some (C.canonicalBytes policy) := by
  obtain ⟨dryJson, dir₁, hread, h₁⟩ := Fallible.bind_ok_iff.mp h
  obtain ⟨hdir₁, dryBytes, hdryFile, hdryUtf8⟩ := Env.readToString_ok hread
  obtain ⟨dry, dir₂, hparsed, h₂⟩ := Fallible.bind_ok_iff.mp h₁
  obtain ⟨hdry, hdir₂⟩ := Fallible.ofExcept_ok_iff.mp hparsed
  obtain ⟨compiledJson, dir₃, hread', h₃⟩ := Fallible.bind_ok_iff.mp h₂
  obtain ⟨-, compiledBytes, hcompiledFile, hcompiledUtf8⟩ := Env.readToString_ok hread'
  rw [hdir₂, hdir₁] at hcompiledFile
  obtain ⟨compiled, dir₄, hparsed', h₄⟩ := Fallible.bind_ok_iff.mp h₃
  obtain ⟨hcompiled, -⟩ := Fallible.ofExcept_ok_iff.mp hparsed'
  refine ⟨dryBytes, compiledBytes, dryJson, compiledJson, dry, compiled, hdryFile, hdryUtf8, hdry,
    hcompiledFile, hcompiledUtf8, hcompiled, ?_⟩
  cases hspec : opts.policySpec with
  | none =>
      rw [hspec] at h₄
      obtain ⟨hguest, -⟩ := Prod.mk.inj h₄
      obtain rfl := Except.ok.inj hguest
      exact ⟨rfl, rfl, rfl, rfl, rfl, rfl⟩
  | some spec =>
      rw [hspec] at h₄
      obtain ⟨policy, _, hload, h₅⟩ := Fallible.bind_ok_iff.mp h₄
      obtain ⟨hguest, -⟩ := Prod.mk.inj h₅
      obtain rfl := Except.ok.inj hguest
      exact ⟨rfl, rfl, rfl, rfl, rfl, policy, (Fallible.ofExcept_ok_iff.mp hload).1, rfl⟩

/-- Up to the replay: the files are written, the host succeeds, the guest input is read. -/
theorem proveAndReadBack_ok {program : C.Program} {source : String} {input : C.Value}
    {output : C.Output} {attestations : List Bytes} {opts : OpenVmOptions}
    {artifacts : ProveArtifacts} {out : HostOutput} {guest : C.Guest} {dir dir' : OutputDir}
    (h : proveAndReadBack C env program source input output attestations opts dir
      = (.ok (artifacts, out, guest), dir')) :
    ∃ dir₁ dir₂ program' args,
      buildProofArtifacts C env program source input output attestations opts.outputDir dir
        = (.ok artifacts, dir₁) ∧
      env.runCommand program' args dir₁ = (.ok out, dir₂) ∧ out.success = true ∧
      readGuestInput C env input artifacts opts dir₂ = (.ok guest, dir') := by
  obtain ⟨artifacts', dir₁, hbuild, h₁⟩ := Fallible.bind_ok_iff.mp h
  obtain ⟨out', dir₂, hhost, h₂⟩ := Fallible.bind_ok_iff.mp h₁
  cases hsuccess : out'.success with
  | false =>
      simp only [hsuccess, Bool.not_false, if_true] at h₂
      cases h₂
  | true =>
      simp only [hsuccess, Bool.not_true, Bool.false_eq_true, if_false] at h₂
      obtain ⟨guest', dir₃, hread, h₃⟩ := Fallible.bind_ok_iff.mp h₂
      obtain ⟨hresult, rfl⟩ := Prod.mk.inj h₃
      cases hresult
      exact ⟨dir₁, dir₂, _, _, hbuild, Env.command_ok hhost, hsuccess, hread⟩

/-- The reported public inputs are those of the replayed guest input. -/
theorem buildProofArtifactsWithOpenvm_ok {program : C.Program} {source : String}
    {input : C.Value} {output : C.Output} {attestations : List Bytes} {opts : OpenVmOptions}
    {artifacts : ProveArtifacts} {dir dir' : OutputDir}
    (h : buildProofArtifactsWithOpenvm C env program source input output attestations opts dir
      = (.ok artifacts, dir')) :
    ∃ artifacts' out guest replayed,
      proveAndReadBack C env program source input output attestations opts dir
        = (.ok (artifacts', out, guest), dir') ∧
      C.replayPublicInputs guest = .ok (replayed, artifacts.publicInputs) := by
  obtain ⟨⟨artifacts', out, guest⟩, dir₁, hread, h₁⟩ := Fallible.bind_ok_iff.mp h
  obtain ⟨⟨replayed, pi⟩, dir₂, hstep, h₂⟩ := Fallible.bind_ok_iff.mp h₁
  obtain ⟨hreplay, rfl⟩ := Fallible.ofExcept_ok_iff.mp hstep
  obtain ⟨hartifacts, rfl⟩ := Prod.mk.inj h₂
  obtain rfl := Except.ok.inj hartifacts
  exact ⟨artifacts', out, guest, replayed, hread, hreplay⟩

/-- The Noir backend keeps the computed public inputs and lists them as words. -/
theorem buildProofArtifactsWithNoir_ok {program : C.Program} {source : String} {input : C.Value}
    {output : C.Output} {attestations : List Bytes} {outputDir circuitDir : String}
    {artifacts : ProveArtifacts} {dir dir' : OutputDir}
    (h : buildProofArtifactsWithNoir C env program source input output attestations outputDir
      circuitDir dir = (.ok artifacts, dir')) :
    artifacts.publicInputs = (dryRunResult C program input output attestations).publicInputs ∧
      ∃ summary out, artifacts.noirProof = some summary ∧
        summary.publicInputsHex = noirWords artifacts.publicInputs out := by
  obtain ⟨artifacts', _, hbuild, h₁⟩ := Fallible.bind_ok_iff.mp h
  obtain ⟨_, _, -, h₂⟩ := Fallible.bind_ok_iff.mp h₁
  obtain ⟨_, _, -, h₃⟩ := Fallible.bind_ok_iff.mp h₂
  obtain ⟨out, _, -, h₄⟩ := Fallible.bind_ok_iff.mp h₃
  obtain ⟨hartifacts, -⟩ := Prod.mk.inj h₄
  obtain rfl := Except.ok.inj hartifacts
  exact ⟨(buildProofArtifacts_ok hbuild).1, _, out, rfl, rfl⟩

end ProvenoOracle
