import ProvenoOracle.Demo.Words
import ProvenoOracle.Prove.ConcreteRun

/-! # What is submitted on chain

After a proof the demo server builds the eight-field tuple of the verifier contract
(`runner.rs`): two numbers read back from the proof's hex words, and the six hashes. The contract
call encodes the tuple by the Solidity ABI (`chain.rs`), one 32-byte word a field. The words that
leave the server are the words that the proof declares (`demo_submits_declared_words`).
-/

set_option autoImplicit false

namespace ProvenoOracle.Demo

open Codec

/-! ## The tuple -/

/-- `PublicInputs` of the demo: the tuple of `ProvenoVerifier.verify`. -/
structure PublicInputs where
  numSteps : UInt32
  programHash : ByteArr 32
  returnValue : Int64
  toolResponsesHash : ByteArr 32
  inputHash : ByteArr 32
  outputHash : ByteArr 32
  attestationHash : ByteArr 32
  policyHash : ByteArr 32

/-- `ProofHashes`: the hashes as the page shows them. -/
structure ProofHashes where
  programHash : String
  inputHash : String
  toolResponsesHash : String
  outputHash : String
  attestationHash : String
  policyHash : String
  deriving DecidableEq

/-- `hex32`: without a prefix. -/
def hex32 (bytes : ByteArr 32) : String := String.ofList (bytes.val.flatMap hexByte)

/-- The hashes of the `Complete` event. -/
def proofHashes (pi : ProvenoOracle.PublicInputs) : ProofHashes where
  programHash := hex32 pi.programHash
  inputHash := hex32 pi.inputHash
  toolResponsesHash := hex32 pi.toolResponsesHash
  outputHash := hex32 pi.outputHash
  attestationHash := hex32 pi.attestationHash
  policyHash := hex32 pi.policyHash

/-- The tuple that `run_pipeline_inner` builds. -/
def publicInputs (pi : ProvenoOracle.PublicInputs) (publicInputsHex : Vector String 8) :
    Except String PublicInputs := do
  let numSteps ← parseU32Bytes32 publicInputsHex[0]
  let returnValue ← parseI64Bytes32 publicInputsHex[2]
  return {
    numSteps := numSteps
    programHash := pi.programHash
    returnValue := returnValue
    toolResponsesHash := pi.toolResponsesHash
    inputHash := pi.inputHash
    outputHash := pi.outputHash
    attestationHash := pi.attestationHash
    policyHash := pi.policyHash }

/-! ## The contract call -/

/-- The Solidity values that occur in the tuple. -/
inductive SolValue where
  | uint32 (v : UInt32)
  | int64 (v : Int64)
  | bytes32 (v : ByteArr 32)

/-- The ABI word of a value: unsigned numbers are padded with zeros, signed ones are taken modulo
`2 ^ 256`, and `bytes32` stands as it is. -/
def SolValue.abiWord : SolValue → ByteArr 32
  | .uint32 v => ⟨toBeBytes 32 v.toNat, toBeBytes_length _ _⟩
  | .int64 v => ⟨toBeBytes 32 (v.toInt % 2 ^ 256).toNat, toBeBytes_length _ _⟩
  | .bytes32 v => v

/-- `SolPublicInputs` -/
structure SolPublicInputs where
  numSteps : UInt32
  programHash : ByteArr 32
  returnValue : Int64
  toolResponsesHash : ByteArr 32
  inputHash : ByteArr 32
  outputHash : ByteArr 32
  attestationHash : ByteArr 32
  policyHash : ByteArr 32

/-- The tuple that `verify_on_chain` calls the contract with. -/
def solInputs (inputs : PublicInputs) : SolPublicInputs where
  numSteps := inputs.numSteps
  programHash := inputs.programHash
  returnValue := inputs.returnValue
  toolResponsesHash := inputs.toolResponsesHash
  inputHash := inputs.inputHash
  outputHash := inputs.outputHash
  attestationHash := inputs.attestationHash
  policyHash := inputs.policyHash

/-- The fields in declaration order. -/
def SolPublicInputs.fields (s : SolPublicInputs) : List SolValue :=
  [.uint32 s.numSteps, .bytes32 s.programHash, .int64 s.returnValue,
    .bytes32 s.toolResponsesHash, .bytes32 s.inputHash, .bytes32 s.outputHash,
    .bytes32 s.attestationHash, .bytes32 s.policyHash]

/-- The ABI encoding: a static tuple is the words of its fields. -/
def SolPublicInputs.abiWords (s : SolPublicInputs) : List (ByteArr 32) :=
  s.fields.map SolValue.abiWord

/-- `ChainConfig`, with the address as it is printed. -/
structure ChainConfig where
  rpcUrl : String
  chainId : UInt64
  verifierAddr : String
  explorerBase : Option String

/-- `VerifyResult` -/
inductive VerifyResult where
  | accepted
  | rejected (reason : String)
  deriving DecidableEq

/-- `ChainError` -/
inductive ChainError where
  | io (msg : String)
  | rpc (msg : String)
  | deploy (msg : String)
  | config (msg : String)

/-- `Display` of a `ChainError`. -/
def ChainError.text : ChainError → String
  | .io s => s!"chain io error: {s}"
  | .rpc s => s!"chain rpc error: {s}"
  | .deploy s => s!"chain deploy error: {s}"
  | .config s => s!"chain config error: {s}"

/-- The node and the contract: whether a URL can be parsed, and what `ProvenoVerifier.verify`
answers to a proof and a tuple, or the text of the error. -/
structure Chain where
  parseUrl : String → Except String Unit
  verify : Bytes → SolPublicInputs → Except String Bool

/-- `classify_revert` -/
def classifyRevert (err : String) : String :=
  if strContains err "0xdec0f374" || strContains err "PolicyHashMismatch" then "PolicyHashMismatch"
  else if strContains err "0x7fcdd1f4" || strContains err "ProofInvalid" then "ProofInvalid"
  else "unknown"

/-- `verify_on_chain` -/
def verifyOnChain (chain : Chain) (cfg : ChainConfig) (proof : Bytes) (inputs : PublicInputs) :
    Except ChainError VerifyResult :=
  match chain.parseUrl cfg.rpcUrl with
  | .error e => .error (.config s!"invalid rpc_url: {e}")
  | .ok () =>
      match chain.verify proof (solInputs inputs) with
      | .ok true => .ok .accepted
      | .ok false => .ok (.rejected "unknown")
      | .error e => .ok (.rejected (classifyRevert e))

/-! ## The words of the numbers -/

/-- The unsigned number is padded with zeros on both sides. -/
theorem abiWord_uint32 (v : UInt32) :
    bytes32Hex (SolValue.uint32 v).abiWord = u32ToBytes32Hex v := by
  have hv : v.toNat < 256 ^ 4 := v.toNat_lt
  have hbytes : toBeBytes 32 v.toNat = List.replicate 28 0 ++ toBeBytes 4 v.toNat := by
    rw [show 32 = 28 + 4 from rfl, toBeBytes_add, Nat.div_eq_of_lt hv, toBeBytes_zero]
  exact congrArg bytes32Hex (Subtype.ext hbytes)

/-- The signed number modulo `2 ^ 256`: its 64 bits, under a mask of its sign. -/
theorem toInt_emod_two_pow (v : Int64) :
    (v.toInt % 2 ^ 256).toNat
      = v.toUInt64.toNat + 256 ^ 8 * (if v < 0 then 256 ^ 24 - 1 else 0) := by
  have hbits : v.toInt = if 2 * v.toUInt64.toNat < 2 ^ 64 then (v.toUInt64.toNat : Int)
      else v.toUInt64.toNat - (2 ^ 64 : Nat) := BitVec.toInt_eq_toNat_cond v.toBitVec
  have hrange : v.toUInt64.toNat < 2 ^ 64 := v.toUInt64.toNat_lt
  by_cases hneg : v < 0
  · have hnegInt : v.toInt < 0 := Int64.lt_iff_toInt_lt.mp hneg
    rw [if_pos hneg]
    split at hbits <;> omega
  · have hnonneg : ¬v.toInt < 0 := fun h => hneg (Int64.lt_iff_toInt_lt.mpr h)
    rw [if_neg hneg]
    split at hbits <;> omega

/-- **Sign extension agrees**: the contract's word of a signed number is the word that the
orchestrator prints. -/
theorem abiWord_int64 (v : Int64) :
    bytes32Hex (SolValue.int64 v).abiWord = i64ToBytes32Hex v := by
  have hv : v.toUInt64.toNat < 256 ^ 8 := v.toUInt64.toNat_lt
  have hbytes : toBeBytes 32 (v.toInt % 2 ^ 256).toNat
      = List.replicate 24 (if v < 0 then 0xff else 0x00) ++ toBeBytes 8 v.toUInt64.toNat := by
    rw [toInt_emod_two_pow, show 32 = 24 + 8 from rfl, toBeBytes_add, toBeBytes_add_mul,
      Nat.add_mul_div_left _ _ (Nat.pow_pos (by decide)), Nat.div_eq_of_lt hv, Nat.zero_add]
    by_cases hneg : v < 0
    · rw [if_pos hneg, if_pos hneg, toBeBytes_max]
    · rw [if_neg hneg, if_neg hneg, toBeBytes_zero]
  exact congrArg bytes32Hex (Subtype.ext hbytes)

/-! ## The claim of the proof -/

/-- A hash on the page is the word without its prefix. -/
theorem bytes32Hex_eq_hex32 (bytes : ByteArr 32) : bytes32Hex bytes = "0x" ++ hex32 bytes :=
  bytes32Hex_eq bytes

/-- **The words are submitted**: the tuple can be built, its ABI words are the given ones, and the
hashes on the page are those words. -/
structure Submits (pi : ProvenoOracle.PublicInputs) (words : Vector String 8) : Prop where
  submitted : ∃ inputs, publicInputs pi words = .ok inputs ∧
    (solInputs inputs).abiWords.map bytes32Hex = words.toList
  programHash : words[1]? = some ("0x" ++ (proofHashes pi).programHash)
  toolResponsesHash : words[3]? = some ("0x" ++ (proofHashes pi).toolResponsesHash)
  inputHash : words[4]? = some ("0x" ++ (proofHashes pi).inputHash)
  outputHash : words[5]? = some ("0x" ++ (proofHashes pi).outputHash)
  attestationHash : words[6]? = some ("0x" ++ (proofHashes pi).attestationHash)
  policyHash : words[7]? = some ("0x" ++ (proofHashes pi).policyHash)

theorem publicInputs_noirWords (pi : ProvenoOracle.PublicInputs) (out : NoirOutput) :
    publicInputs pi (noirWords pi out)
      = .ok ⟨out.numSteps, pi.programHash, out.returnValue, pi.toolResponsesHash, pi.inputHash,
        pi.outputHash, pi.attestationHash, pi.policyHash⟩ := by
  show (parseU32Bytes32 (u32ToBytes32Hex out.numSteps) >>= fun numSteps =>
    parseI64Bytes32 (i64ToBytes32Hex out.returnValue) >>= fun returnValue => _) = _
  rw [parseU32Bytes32_u32ToBytes32Hex, parseI64Bytes32_i64ToBytes32Hex]
  rfl

/-- The words of any proof are submitted. -/
theorem submits_noirWords (pi : ProvenoOracle.PublicInputs) (out : NoirOutput) :
    Submits pi (noirWords pi out) where
  submitted := by
    refine ⟨_, publicInputs_noirWords pi out, ?_⟩
    show [bytes32Hex (SolValue.uint32 out.numSteps).abiWord, bytes32Hex pi.programHash,
      bytes32Hex (SolValue.int64 out.returnValue).abiWord, _, _, _, _, _]
      = (noirWords pi out).toList
    rw [abiWord_uint32, abiWord_int64]
    rfl
  programHash := congrArg some (bytes32Hex_eq_hex32 _)
  toolResponsesHash := congrArg some (bytes32Hex_eq_hex32 _)
  inputHash := congrArg some (bytes32Hex_eq_hex32 _)
  outputHash := congrArg some (bytes32Hex_eq_hex32 _)
  attestationHash := congrArg some (bytes32Hex_eq_hex32 _)
  policyHash := congrArg some (bytes32Hex_eq_hex32 _)

/-- **The demo submits what the proof declares**: for all numbers and hashes, and so for every
proof that the Noir backend returns. -/
theorem demo_submits_declared_words :
    (∀ (pi : ProvenoOracle.PublicInputs) (out : NoirOutput), Submits pi (noirWords pi out)) ∧
    (∀ n : UInt32, parseU32Bytes32 (u32ToBytes32Hex n) = .ok n) ∧
    (∀ v : Int64, parseI64Bytes32 (i64ToBytes32Hex v) = .ok v) ∧
    ∀ (C : ProvenoCrates) (env : Env C) (program : C.Program) (source : String) (input : C.Value)
      (output : C.Output) (attestations : List Bytes) (outputDir circuitDir : String)
      (artifacts : ProveArtifacts) (dir dir' : OutputDir),
      buildProofArtifactsWithNoir C env program source input output attestations outputDir
        circuitDir dir = (.ok artifacts, dir') →
      ∃ noir, artifacts.noirProof = some noir ∧
        Submits artifacts.publicInputs noir.publicInputsHex := by
  refine ⟨submits_noirWords, parseU32Bytes32_u32ToBytes32Hex, parseI64Bytes32_i64ToBytes32Hex, ?_⟩
  intro C env program source input output attestations outputDir circuitDir artifacts dir dir' h
  rcases buildProofArtifactsWithNoir_ok h with ⟨-, noir, out, hnoir, hwords⟩
  refine ⟨noir, hnoir, ?_⟩
  rw [hwords]
  exact submits_noirWords artifacts.publicInputs out

theorem demo_submits_declared_words_add :
    ∃ noir, (addRun .noir .constrainedHttpV1).artifacts.noirProof = some noir ∧
      Submits (addRun .noir .constrainedHttpV1).artifacts.publicInputs noir.publicInputsHex :=
  demo_submits_declared_words.2.2.2 plainCrates quietEnv addProgram "return 1 + 2" ()
    addProgram.output [] "proof-output" "noir" _ _ _ (addRun .noir .constrainedHttpV1).proved

example : i64ToBytes32Hex (-2)
    = "0xfffffffffffffffffffffffffffffffffffffffffffffffffffffffffffffffe" := by
  decide +kernel

end ProvenoOracle.Demo
