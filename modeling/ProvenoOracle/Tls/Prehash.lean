import ProvenoOracle.Tls.Signature

/-! # The message integer of ECDSA

`ecdsa_p256_verify` and `ecdsa_p384_verify` bring a digest of 32, 48 or 64 bytes to the width of
the curve by hand. The standard's message integer is `bits2int`: the leftmost bits of the digest,
as many as the curve's order has, read as a number. In all six combinations the array that is
passed to `verify_prehash` is that number.
-/

set_option autoImplicit false

namespace ProvenoOracle

open Codec

/-! ## The standard -/

/-- `bits2int`: the digest as a number when it has at most `qlen` bits, else its leftmost `qlen`
bits. -/
def bits2int (qlen : Nat) (digest : Bytes) : Nat :=
  if 8 * digest.length ≤ qlen then ofBeBytes digest
  else ofBeBytes digest >>> (8 * digest.length - qlen)

theorem bits2int_eq_leftmostBits (n : Nat) (digest : Bytes) :
    bits2int (8 * n) digest = leftmostBits n digest := by
  unfold bits2int leftmostBits
  by_cases hshort : digest.length ≤ n
  · rw [if_pos hshort, if_pos (by omega)]
  · rw [if_neg hshort, if_neg (by omega), Nat.mul_sub]

section Digests

variable (K : Crates)

/-- The digest of an accepted hash function. -/
def Sha2.digest (d : Sha2) (tbsDer : Bytes) : Bytes :=
  match d with
  | .sha256 => (K.sha256 tbsDer).val
  | .sha384 => (K.sha384 tbsDer).val
  | .sha512 => (K.sha512 tbsDer).val

/-- The signature algorithm that ECDSA uses the hash function under. -/
def Sha2.ecdsaAlgorithm : Sha2 → ObjectIdentifier
  | .sha256 => SHA256_ECDSA
  | .sha384 => SHA384_ECDSA
  | .sha512 => SHA512_ECDSA

/-- A signature is checked against a prehash: the key and the signature can be read, and the
curve's `verify_prehash` accepts. -/
def EcdsaCrate.acceptsPrehash (C : EcdsaCrate) (prehash sigBytes keyBytes : Bytes) : Bool :=
  match C.fromSec1Bytes keyBytes, C.signatureFromDer sigBytes with
  | some vk, some sig => C.verifyPrehash vk prehash sig
  | _, _ => false

/-! ## The six combinations -/

theorem Sha2.digest_length (d : Sha2) (tbsDer : Bytes) :
    (d.digest K tbsDer).length =
      match d with
      | .sha256 => 32
      | .sha384 => 48
      | .sha512 => 64 := by
  cases d with
  | sha256 => exact (K.sha256 tbsDer).property
  | sha384 => exact (K.sha384 tbsDer).property
  | sha512 => exact (K.sha512 tbsDer).property

/-- The dispatch that both curves make on the signature algorithm. -/
theorem Sha2.dispatch_eq {α : Type} (d : Sha2) (a b c : Option α) :
    (if d.ecdsaAlgorithm = SHA256_ECDSA then a
      else if d.ecdsaAlgorithm = SHA384_ECDSA then b
      else if d.ecdsaAlgorithm = SHA512_ECDSA then c
      else none) =
      match d with
      | .sha256 => a
      | .sha384 => b
      | .sha512 => c := by
  have h384 : SHA384_ECDSA ≠ SHA256_ECDSA := by decide
  have h512 : SHA512_ECDSA ≠ SHA256_ECDSA ∧ SHA512_ECDSA ≠ SHA384_ECDSA := by decide
  cases d with
  | sha256 => exact if_pos rfl
  | sha384 => exact (if_neg h384).trans (if_pos rfl)
  | sha512 => exact (if_neg h512.1).trans ((if_neg h512.2).trans (if_pos rfl))

/-- On P-256 every digest is cut to the width. -/
theorem p256Prehash_eq (d : Sha2) (tbsDer : Bytes) :
    p256Prehash K d.ecdsaAlgorithm tbsDer = some (fitBytes 32 (d.digest K tbsDer)) := by
  have hlength := d.digest_length (K := K) tbsDer
  have hcut : 32 ≤ (d.digest K tbsDer).length := by
    rw [hlength]
    cases d <;> decide
  rw [p256Prehash, d.dispatch_eq, fitBytes_of_ge hcut]
  cases d with
  | sha256 => exact congrArg some (List.take_of_length_le (Nat.le_of_eq hlength)).symm
  | sha384 => rfl
  | sha512 => rfl

/-- On P-384 the shortest digest is padded, and the longest one is cut. -/
theorem p384Prehash_eq (d : Sha2) (tbsDer : Bytes) :
    p384Prehash K d.ecdsaAlgorithm tbsDer = some (fitBytes 48 (d.digest K tbsDer)) := by
  have hlength := d.digest_length (K := K) tbsDer
  rw [p384Prehash, d.dispatch_eq]
  cases d with
  | sha256 =>
      have hpad : (Sha2.sha256.digest K tbsDer).length ≤ 48 := by
        rw [hlength]
        decide
      rw [fitBytes_of_le hpad, hlength]
      rfl
  | sha384 =>
      have hsame := fitBytes_self (Sha2.sha384.digest K tbsDer)
      rw [hlength] at hsame
      rw [hsame]
      rfl
  | sha512 =>
      have hcut : 48 ≤ (Sha2.sha512.digest K tbsDer).length := by
        rw [hlength]
        decide
      rw [fitBytes_of_ge hcut]
      rfl

/-- A check whose prehash is known is that of the prehash. -/
theorem ecdsaVerify_eq {C : EcdsaCrate} {prehash : ObjectIdentifier → Bytes → Option Bytes}
    {tbsDer h : Bytes} {sigAlg : ObjectIdentifier} (hprehash : prehash sigAlg tbsDer = some h)
    (sigBytes keyBytes : Bytes) :
    ecdsaVerify C prehash tbsDer sigBytes sigAlg keyBytes
      = C.acceptsPrehash h sigBytes keyBytes := by
  unfold ecdsaVerify EcdsaCrate.acceptsPrehash
  cases C.fromSec1Bytes keyBytes with
  | none => rfl
  | some vk =>
      cases C.signatureFromDer sigBytes with
      | none => rfl
      | some sig => rw [hprehash]

/-- Without a prehash there is nothing to check, and the signature is refused. -/
theorem ecdsaVerify_of_none {C : EcdsaCrate} {prehash : ObjectIdentifier → Bytes → Option Bytes}
    {tbsDer : Bytes} {sigAlg : ObjectIdentifier} (hprehash : prehash sigAlg tbsDer = none)
    (sigBytes keyBytes : Bytes) :
    ecdsaVerify C prehash tbsDer sigBytes sigAlg keyBytes = false := by
  unfold ecdsaVerify
  rw [hprehash]
  cases C.fromSec1Bytes keyBytes with
  | none => rfl
  | some vk => cases C.signatureFromDer sigBytes <;> rfl

/-- No other signature algorithm has a prehash on either curve. -/
theorem prehash_eq_none {sigAlg : ObjectIdentifier} (h : ∀ d : Sha2, sigAlg ≠ d.ecdsaAlgorithm)
    (tbsDer : Bytes) :
    p256Prehash K sigAlg tbsDer = none ∧ p384Prehash K sigAlg tbsDer = none := by
  have h256 : sigAlg ≠ SHA256_ECDSA := h .sha256
  have h384 : sigAlg ≠ SHA384_ECDSA := h .sha384
  have h512 : sigAlg ≠ SHA512_ECDSA := h .sha512
  exact ⟨by simp [p256Prehash, h256, h384, h512], by simp [p384Prehash, h256, h384, h512]⟩

/-- **The message integer is the standard one.** Under each accepted hash function both curves
check the signature against an array of the curve's width whose number is `bits2int` of the
digest; under any other algorithm both refuse. -/
theorem ecdsa_message_integer (tbsDer sigBytes keyBytes : Bytes) (sigAlg : ObjectIdentifier) :
    (∃ d : Sha2, sigAlg = d.ecdsaAlgorithm ∧
      (∃ prehash : ByteArr 32, p256Prehash K sigAlg tbsDer = some prehash.val ∧
        ofBeBytes prehash.val = bits2int 256 (d.digest K tbsDer) ∧
        ecdsaP256Verify K tbsDer sigBytes sigAlg keyBytes
          = K.p256.acceptsPrehash prehash.val sigBytes keyBytes) ∧
      ∃ prehash : ByteArr 48, p384Prehash K sigAlg tbsDer = some prehash.val ∧
        ofBeBytes prehash.val = bits2int 384 (d.digest K tbsDer) ∧
        ecdsaP384Verify K tbsDer sigBytes sigAlg keyBytes
          = K.p384.acceptsPrehash prehash.val sigBytes keyBytes) ∨
    (∀ d : Sha2, sigAlg ≠ d.ecdsaAlgorithm) ∧
      ecdsaP256Verify K tbsDer sigBytes sigAlg keyBytes = false ∧
      ecdsaP384Verify K tbsDer sigBytes sigAlg keyBytes = false := by
  by_cases haccepted : ∃ d : Sha2, sigAlg = d.ecdsaAlgorithm
  · obtain ⟨d, rfl⟩ := haccepted
    refine Or.inl ⟨d, rfl, ?_, ?_⟩
    · have hprehash := p256Prehash_eq K d tbsDer
      refine ⟨⟨_, fitBytes_length 32 (d.digest K tbsDer)⟩, hprehash, ?_,
        ecdsaVerify_eq hprehash sigBytes keyBytes⟩
      rw [show 256 = 8 * 32 from rfl, bits2int_eq_leftmostBits, ofBeBytes_fitBytes]
    · have hprehash := p384Prehash_eq K d tbsDer
      refine ⟨⟨_, fitBytes_length 48 (d.digest K tbsDer)⟩, hprehash, ?_,
        ecdsaVerify_eq hprehash sigBytes keyBytes⟩
      rw [show 384 = 8 * 48 from rfl, bits2int_eq_leftmostBits, ofBeBytes_fitBytes]
  · push Not at haccepted
    obtain ⟨h256, h384⟩ := prehash_eq_none K haccepted tbsDer
    exact Or.inr ⟨haccepted, ecdsaVerify_of_none h256 sigBytes keyBytes,
      ecdsaVerify_of_none h384 sigBytes keyBytes⟩

end Digests

end ProvenoOracle
