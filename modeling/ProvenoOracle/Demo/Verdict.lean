import ProvenoOracle.Demo.OnChain

/-! # The verdict and what the chain said

A call of `ProvenoVerifier.verify` ends in one of three ways: the contract returns a boolean, it
reverts with data, or there is no answer of the contract at all. The client folds the last two
into one error, and `verify_on_chain` tells them apart by searching the error's text
(`classify_revert`). This file compares the verdict with the outcome of the call.
-/

set_option autoImplicit false

namespace ProvenoOracle.Demo

/-! ## Outcomes -/

/-- How a call of the contract ended. A revert and a call without an outcome (no connection, a
timeout, a malformed reply) reach the code as an error that prints as `text`. -/
inductive CallOutcome where
  | returned (b : Bool)
  | reverted (data : Bytes) (text : String)
  | noOutcome (text : String)

/-- What the code gets to see of it. -/
def CallOutcome.answer : CallOutcome → Except String Bool
  | .returned b => .ok b
  | .reverted _ text => .error text
  | .noOutcome text => .error text

/-- A node and a contract with the outcome of every call. -/
structure ChainOutcomes where
  parseUrl : String → Except String Unit
  call : Bytes → SolPublicInputs → CallOutcome

/-- The chain as the code sees it. -/
def ChainOutcomes.chain (w : ChainOutcomes) : Chain where
  parseUrl := w.parseUrl
  verify proof inputs := (w.call proof inputs).answer

/-! ## The verdict that is asked for -/

/-- The selector of `PolicyHashMismatch`. -/
def policySelector : Bytes := [0xde, 0xc0, 0xf3, 0x74]

/-- The selector of `ProofInvalid`. -/
def proofSelector : Bytes := [0x7f, 0xcd, 0xd1, 0xf4]

/-- The errors that a revert is told apart by. -/
inductive RevertKind where
  | policyHashMismatch
  | proofInvalid
  | other
  deriving DecidableEq

/-- The `reason` of a rejection. -/
def RevertKind.reason : RevertKind → String
  | .policyHashMismatch => "PolicyHashMismatch"
  | .proofInvalid => "ProofInvalid"
  | .other => "unknown"

theorem RevertKind.reason_injective : Function.Injective RevertKind.reason := by
  intro k k' h
  cases k <;> cases k' <;> first | rfl | exact absurd h (by decide)

/-- The error that the first four bytes of the revert data select. -/
def dataKind (data : Bytes) : RevertKind :=
  if data.take 4 = policySelector then .policyHashMismatch
  else if data.take 4 = proofSelector then .proofInvalid
  else .other

/-- The result says what the call ended with. -/
def Reflects (outcome : CallOutcome) (result : Except ChainError VerifyResult) : Prop :=
  match outcome with
  | .returned true => result = .ok .accepted
  | .returned false => result = .ok (.rejected "unknown")
  | .reverted data _ => result = .ok (.rejected (dataKind data).reason)
  | .noOutcome _ => ∃ msg, result = .error (.rpc msg)

/-! ## The texts -/

/-- The text has a mark of `PolicyHashMismatch`. -/
def marksPolicy (text : String) : Bool :=
  strContains text "0xdec0f374" || strContains text "PolicyHashMismatch"

/-- The text has a mark of `ProofInvalid`. -/
def marksProof (text : String) : Bool :=
  strContains text "0x7fcdd1f4" || strContains text "ProofInvalid"

/-- The contract has answered, and the text of a revert is marked as its data begins. -/
def MarkedAsItIs : CallOutcome → Prop
  | .returned _ => True
  | .reverted data text =>
      (marksPolicy text = true ↔ data.take 4 = policySelector) ∧
        (marksPolicy text = false ∧ marksProof text = true ↔ data.take 4 = proofSelector)
  | .noOutcome _ => False

/-- The error that the text is taken for. -/
def textKind (text : String) : RevertKind :=
  if marksPolicy text then .policyHashMismatch
  else if marksProof text then .proofInvalid
  else .other

theorem classifyRevert_eq (text : String) : classifyRevert text = (textKind text).reason := by
  show (if marksPolicy text then "PolicyHashMismatch"
    else if marksProof text then "ProofInvalid" else "unknown") = _
  unfold textKind
  cases marksPolicy text <;> cases marksProof text <;> rfl

/-- The text is taken for what the data selects iff it is marked so. -/
theorem textKind_eq_iff (data : Bytes) (text : String) :
    textKind text = dataKind data ↔ MarkedAsItIs (.reverted data text) := by
  have hselectors : proofSelector ≠ policySelector := by decide
  show _ ↔ (marksPolicy text = true ↔ data.take 4 = policySelector) ∧
    (marksPolicy text = false ∧ marksProof text = true ↔ data.take 4 = proofSelector)
  unfold textKind dataKind
  -- the data select one error, and the text must be marked for that one only
  by_cases hpolicy : data.take 4 = policySelector
  · have hproof : data.take 4 ≠ proofSelector := by
      rw [hpolicy]
      exact Ne.symm hselectors
    rw [if_pos hpolicy]
    cases marksPolicy text <;> cases marksProof text <;> simp [hpolicy, Ne.symm hselectors]
  · rw [if_neg hpolicy]
    by_cases hproof : data.take 4 = proofSelector
    · rw [if_pos hproof]
      cases marksPolicy text <;> cases marksProof text <;> simp [hproof, hselectors]
    · rw [if_neg hproof]
      cases marksPolicy text <;> cases marksProof text <;> simp [hpolicy, hproof]

/-! ## The verdict -/

/-- Behind a URL that can be parsed, the verdict is read off what the code sees of the call. -/
theorem verifyOnChain_eq {w : ChainOutcomes} {cfg : ChainConfig}
    (hurl : w.parseUrl cfg.rpcUrl = .ok ()) (proof : Bytes) (inputs : PublicInputs) :
    verifyOnChain w.chain cfg proof inputs =
      match (w.call proof (solInputs inputs)).answer with
      | .ok true => .ok .accepted
      | .ok false => .ok (.rejected "unknown")
      | .error e => .ok (.rejected (classifyRevert e)) := by
  have hparse : w.chain.parseUrl cfg.rpcUrl = .ok () := hurl
  rw [verifyOnChain, hparse]
  rfl

/-- **When the verdict is what the chain said**: the contract has returned, or it has reverted
and the text of the error carries the marks of its selector and no others. -/
theorem verdict_reflects_iff {w : ChainOutcomes} {cfg : ChainConfig}
    (hurl : w.parseUrl cfg.rpcUrl = .ok ()) (proof : Bytes) (inputs : PublicInputs) :
    Reflects (w.call proof (solInputs inputs)) (verifyOnChain w.chain cfg proof inputs) ↔
      MarkedAsItIs (w.call proof (solInputs inputs)) := by
  rw [verifyOnChain_eq hurl]
  cases w.call proof (solInputs inputs) with
  | returned b =>
      cases b with
      | true => exact iff_of_true rfl trivial
      | false => exact iff_of_true rfl trivial
  | reverted data text =>
      rw [← textKind_eq_iff]
      show Except.ok (VerifyResult.rejected (classifyRevert text))
        = Except.ok (VerifyResult.rejected (dataKind data).reason) ↔ _
      rw [classifyRevert_eq]
      constructor
      · intro h
        injection h with h
        injection h with h
        exact RevertKind.reason_injective h
      · intro h
        rw [h]
  | noOutcome text =>
      -- the answer is a rejection, never an RPC error
      refine iff_of_false ?_ not_false
      rintro ⟨msg, h⟩
      cases h

/-- Every call ends the same way. -/
def outcomesOf (outcome : CallOutcome) : ChainOutcomes where
  parseUrl _ := .ok ()
  call _ _ := outcome

/-- A chain behind a local node. -/
def localConfig : ChainConfig := ⟨"http://127.0.0.1:8545", 31337, "0x5FbD", none⟩

/-- A tuple of zeros. -/
def zeroInputs : PublicInputs := ⟨0, zero32, 0, zero32, zero32, zero32, zero32, zero32⟩

/-- A policy mismatch that the node reports with its data. -/
theorem verdict_reflects_iff_mismatch :
    Reflects (.reverted policySelector "execution reverted, data: \"0xdec0f374\"")
      (verifyOnChain (outcomesOf (.reverted policySelector
        "execution reverted, data: \"0xdec0f374\"")).chain localConfig [] zeroInputs) := by
  have hmarked : MarkedAsItIs (.reverted policySelector
      "execution reverted, data: \"0xdec0f374\"") := by
    constructor <;> decide +kernel
  exact (@verdict_reflects_iff (outcomesOf _) localConfig rfl [] zeroInputs).mpr hmarked

/-- A connection that fails is reported as a rejection. A revert with data of another error is
taken for an invalid proof when its text says so. -/
theorem verdict_not_reflected :
    (¬ Reflects (.noOutcome "error sending request for url (http://127.0.0.1:8545/)")
      (verifyOnChain (outcomesOf (.noOutcome
        "error sending request for url (http://127.0.0.1:8545/)")).chain localConfig []
          zeroInputs)) ∧
    verifyOnChain (outcomesOf (.reverted [0x08, 0xc3, 0x79, 0xa0]
        "execution reverted: not ProofInvalid")).chain localConfig [] zeroInputs
      = .ok (.rejected "ProofInvalid") ∧
    ¬ ∀ (w : ChainOutcomes) (cfg : ChainConfig), w.parseUrl cfg.rpcUrl = .ok () →
      ∀ proof inputs, Reflects (w.call proof (solInputs inputs))
        (verifyOnChain w.chain cfg proof inputs) := by
  have hrefused : ¬ Reflects
      (.noOutcome "error sending request for url (http://127.0.0.1:8545/)")
      (verifyOnChain (outcomesOf (.noOutcome
        "error sending request for url (http://127.0.0.1:8545/)")).chain localConfig []
          zeroInputs) := by
    rintro ⟨msg, h⟩
    rw [verifyOnChain_eq rfl] at h
    cases h
  have hclass : classifyRevert "execution reverted: not ProofInvalid" = "ProofInvalid" := by
    decide +kernel
  refine ⟨hrefused, ?_, ?_⟩
  · rw [verifyOnChain_eq rfl]
    exact congrArg (fun reason => Except.ok (VerifyResult.rejected reason)) hclass
  intro h
  exact hrefused (h (outcomesOf _) localConfig rfl [] zeroInputs)

end ProvenoOracle.Demo
