import ProvenoOracle.Tls.ConcreteCrates

/-! # The schemes behind an accepted chain

`verify_p256_chain` requires a P-256 key of the leaf only. `verify_cert_sig` and the anchor loop
have arms for P-256, P-384 and RSA keys, so a signature in an accepted chain may be of any of the
three schemes. `AcceptedUnder` lists the keys under which the signatures of a chain are accepted,
and `accepted_under_p256_iff` says when they are all P-256 keys.
-/

set_option autoImplicit false

namespace ProvenoOracle

open Codec

variable (K : Crates) (t : Target)

/-! ## The accepting keys -/

def PublicKey.IsP256 : PublicKey → Prop
  | .p256 _ => True
  | _ => False

/-- The key under which one round of the anchor loop accepts: P-256 is tried before P-384. -/
def anchorKeyUsed (anchor : TrustAnchor) (tbsDer sigBytes : Bytes) (sigAlg : ObjectIdentifier) :
    Option PublicKey :=
  match spkiAlgAndKey K t anchor.subjectPublicKeyInfo with
  | .ok (some (keyAlg, keyBytes)) =>
      if keyAlg = ID_EC_PUBLIC_KEY then
        if ecdsaP256Verify K tbsDer sigBytes sigAlg keyBytes then some (.p256 keyBytes)
        else if ecdsaP384Verify K tbsDer sigBytes sigAlg keyBytes then some (.p384 keyBytes)
        else none
      else if keyAlg = RSA_OID then
        if anchorRsaVerify K.rsa tbsDer sigBytes sigAlg keyBytes then some (.rsa keyBytes) else none
      else none
  | _ => none

/-- The first trust anchor whose key verifies the certificate's signature. -/
def verifyingAnchor (c : Bytes × Certificate) : Option TrustAnchor :=
  match extractTbsDer t c.1, c.2.signature.asBytes with
  | .ok (some tbsDer), some sigBytes =>
      K.tlsServerRoots.find? fun a =>
        anchorVerifies K t a tbsDer sigBytes c.2.signatureAlgorithm.oid = .ok true
  | _, _ => none

/-- The key of that anchor under which it does. -/
def anchorKeyFor (c : Bytes × Certificate) : Option PublicKey := do
  let anchor ← verifyingAnchor K t c
  match extractTbsDer t c.1, c.2.signature.asBytes with
  | .ok (some tbsDer), some sigBytes =>
      anchorKeyUsed K t anchor tbsDer sigBytes c.2.signatureAlgorithm.oid
  | _, _ => none

/-- **The keys under which the signatures of a chain are accepted**, in the order of the chain:
the next certificate's key, and at the top a trust anchor's. The signature of a certificate with
an anchor's SubjectPublicKeyInfo is not looked at. -/
inductive AcceptedUnder : List (Bytes × Certificate) → List PublicKey → Prop where
  | pinned {c : Bytes × Certificate} (hpin : spkiIsAnchor K t c.2 = .ok true) :
      AcceptedUnder [c] []
  | anchored {c : Bytes × Certificate} {key : PublicKey}
      (hpin : spkiIsAnchor K t c.2 = .ok false) (hkey : anchorKeyFor K t c = some key) :
      AcceptedUnder [c] [key]
  | issued {child issuer : Bytes × Certificate} {above : List (Bytes × Certificate)}
      {key : PublicKey} {keys : List PublicKey} (hkey : certKey K issuer.2 = some key)
      (hsigned : SignedUnder K t child.1 child.2 key)
      (h : AcceptedUnder (issuer :: above) keys) :
      AcceptedUnder (child :: issuer :: above) (key :: keys)

/-! ## The keys that are declared -/

/-- The anchor has an EC key that decodes on P-256. -/
def anchorIsP256 (anchor : TrustAnchor) : Bool :=
  match spkiAlgAndKey K t anchor.subjectPublicKeyInfo with
  | .ok (some (keyAlg, keyBytes)) =>
      keyAlg = ID_EC_PUBLIC_KEY && (K.p256.fromSec1Bytes keyBytes).isSome
  | _ => false

/-- Every certificate above the leaf declares a P-256 key, and the trust anchor that vouches for
the last one has a P-256 key too, unless the last one has an anchor's SubjectPublicKeyInfo. -/
structure SignersAreP256 (leaf : Bytes × Certificate) (above : List (Bytes × Certificate)) :
    Prop where
  issuers : ∀ c ∈ above, spkiIsP256 K c.2 = true
  anchor : spkiIsAnchor K t (topmost leaf above).2 = .ok true ∨
    ∃ a, verifyingAnchor K t (topmost leaf above) = some a ∧ anchorIsP256 K t a = true

/-- No key decodes on both curves: their SEC1 encodings have different lengths. -/
def Crates.CurvesDisjoint : Prop :=
  ∀ keyBytes, (K.p256.fromSec1Bytes keyBytes).isSome → K.p384.fromSec1Bytes keyBytes = none

variable {K t}

theorem ecdsaVerify_true {C : EcdsaCrate} {prehash : ObjectIdentifier → Bytes → Option Bytes}
    {tbsDer sigBytes keyBytes : Bytes} {sigAlg : ObjectIdentifier}
    (h : ecdsaVerify C prehash tbsDer sigBytes sigAlg keyBytes = true) :
    (C.fromSec1Bytes keyBytes).isSome := by
  unfold ecdsaVerify at h
  cases hkey : C.fromSec1Bytes keyBytes with
  | none =>
      rw [hkey] at h
      cases h
  | some vk => rfl

/-- A round of the anchor loop accepts exactly when it has a key to accept under. -/
theorem anchorVerifies_iff_anchorKeyUsed {anchor : TrustAnchor} {tbsDer sigBytes : Bytes}
    {sigAlg : ObjectIdentifier} :
    anchorVerifies K t anchor tbsDer sigBytes sigAlg = .ok true ↔
      ∃ key, anchorKeyUsed K t anchor tbsDer sigBytes sigAlg = some key := by
  unfold anchorVerifies anchorKeyUsed
  cases spkiAlgAndKey K t anchor.subjectPublicKeyInfo with
  | error p => simp
  | ok o =>
      cases o with
      | none => simp
      | some ak =>
          simp only [Run.ok_bind, Run.pure_eq]
          -- one case for each arm of the loop's dispatch
          split_ifs <;> simp_all

theorem anchorKeyUsed_verifies {anchor : TrustAnchor} {tbsDer sigBytes : Bytes}
    {sigAlg : ObjectIdentifier} {key : PublicKey}
    (h : anchorKeyUsed K t anchor tbsDer sigBytes sigAlg = some key) :
    key.verifies K sigAlg tbsDer sigBytes = true := by
  unfold anchorKeyUsed at h
  split at h
  · rw [anchorRsaVerify_eq] at h
    split_ifs at h with hec h256 h384 hrsa hverify <;> cases h
    · exact h256
    · exact h384
    · exact hverify
  · cases h

/-- The key that an anchor accepts under is a P-256 key exactly when the anchor has one. -/
theorem anchorKeyUsed_isP256_iff (hcurves : K.CurvesDisjoint) {anchor : TrustAnchor}
    {tbsDer sigBytes : Bytes} {sigAlg : ObjectIdentifier} {key : PublicKey}
    (h : anchorKeyUsed K t anchor tbsDer sigBytes sigAlg = some key) :
    key.IsP256 ↔ anchorIsP256 K t anchor = true := by
  unfold anchorKeyUsed at h
  unfold anchorIsP256
  split at h
  · next keyAlg keyBytes hspki =>
    split_ifs at h with hec h256 h384 hrsa hverify <;> cases h
    · have hdecodes : (K.p256.fromSec1Bytes keyBytes).isSome := ecdsaVerify_true h256
      simp [PublicKey.IsP256, hec, hdecodes]
    · -- a key that verified on P-384 does not decode on P-256
      have hdecodes : (K.p384.fromSec1Bytes keyBytes).isSome := ecdsaVerify_true h384
      have hother : ¬(K.p256.fromSec1Bytes keyBytes).isSome := by
        intro h
        rw [hcurves keyBytes h] at hdecodes
        cases hdecodes
      simp [PublicKey.IsP256, hother]
    · simp [PublicKey.IsP256, hec]
  · cases h

/-- A certificate's key is a P-256 key exactly when the certificate declares one. -/
theorem certKey_isP256_iff {cert : Certificate} {key : PublicKey}
    (h : certKey K cert = some key) : key.IsP256 ↔ spkiIsP256 K cert = true := by
  have hcurves : P384_OID ≠ SECP256R1 := by decide
  unfold certKey at h
  unfold spkiIsP256
  cases hparams : cert.tbsCertificate.subjectPublicKeyInfo.algorithm.parameters with
  | none =>
      simp only [hparams, Option.bind_none, reduceCtorEq, if_false] at h
      split at h
      · cases h
      · split_ifs at h with hec hrsa
        cases h
        simp [PublicKey.IsP256, hec]
  | some params =>
      simp only [hparams, Option.bind_some] at h
      split at h
      · cases h
      · split_ifs at h with hec h256 h384 hrsa <;> cases h
        · simp [PublicKey.IsP256, hec, hparams, h256]
        · simp [PublicKey.IsP256, hec, hparams, h384, hcurves]
        · simp [PublicKey.IsP256, hec]

/-! ## The anchor loop -/

/-- When the loop accepts, the first anchor that verifies the signature has a key to do so. -/
theorem exists_anchorKeyFor {c : Bytes × Certificate} {tbsDer sigBytes : Bytes}
    (htbs : extractTbsDer t c.1 = .ok (some tbsDer)) (hsig : c.2.signature.asBytes = some sigBytes)
    (hloop : someAnchorVerifies K t tbsDer sigBytes c.2.signatureAlgorithm.oid K.tlsServerRoots
      = .ok true) : ∃ key, anchorKeyFor K t c = some key := by
  rcases someAnchorVerifies_true hloop with ⟨a, ha, hv⟩
  have hfound : (K.tlsServerRoots.find? fun a => anchorVerifies K t a tbsDer sigBytes
      c.2.signatureAlgorithm.oid = .ok true).isSome := by
    rw [List.find?_isSome]
    exact ⟨a, ha, by simpa using hv⟩
  rcases Option.isSome_iff_exists.mp hfound with ⟨a', ha'⟩
  have hverifies : anchorVerifies K t a' tbsDer sigBytes c.2.signatureAlgorithm.oid
      = .ok true := by
    simpa using List.find?_some ha'
  rcases anchorVerifies_iff_anchorKeyUsed.mp hverifies with ⟨key, hkey⟩
  refine ⟨key, ?_⟩
  simp only [anchorKeyFor, verifyingAnchor, htbs, hsig, ha', hkey, Option.bind_eq_bind,
    Option.bind_some]

/-- The key that the loop accepts under, with the anchor that has it. -/
theorem anchorKeyFor_some {c : Bytes × Certificate} {key : PublicKey}
    (h : anchorKeyFor K t c = some key) :
    ∃ a tbsDer sigBytes, verifyingAnchor K t c = some a ∧
      extractTbsDer t c.1 = .ok (some tbsDer) ∧ c.2.signature.asBytes = some sigBytes ∧
      anchorKeyUsed K t a tbsDer sigBytes c.2.signatureAlgorithm.oid = some key := by
  rcases Option.bind_eq_some_iff.mp h with ⟨a, ha, hkey⟩
  split at hkey
  · next tbsDer sigBytes htbs hsig => exact ⟨a, tbsDer, sigBytes, ha, htbs, hsig, hkey⟩
  · cases hkey

/-! ## Accepted chains -/

/-- An accepted chain has accepting keys, by induction on the chain. -/
theorem exists_acceptedUnder {leaf : Bytes × Certificate} {above : List (Bytes × Certificate)}
    (hpairs : verifyPairs K t (leaf :: above) = .ok true)
    (hroot : isSignedByMozillaRoot K t (topmost leaf above).1 (topmost leaf above).2 = .ok true) :
    ∃ keys, AcceptedUnder K t (leaf :: above) keys := by
  induction above generalizing leaf with
  | nil =>
      rcases isSignedByMozillaRoot_cases hroot with
        hpin | ⟨hpin, tbsDer, sigBytes, htbs, hsig, hloop⟩
      · exact ⟨[], .pinned hpin⟩
      · rcases exists_anchorKeyFor htbs hsig hloop with ⟨key, hkey⟩
        exact ⟨[key], .anchored hpin hkey⟩
  | cons issuer rest ih =>
      rcases verifyPairs_cons_cons_iff.mp hpairs with ⟨hsig, hrest⟩
      rcases verifyCertSig_iff.mp hsig with ⟨key, hkey, hsigned⟩
      rcases ih hrest hroot with ⟨keys, hkeys⟩
      exact ⟨key :: keys, .issued hkey hsigned hkeys⟩

theorem AcceptedUnder.unique {certs : List (Bytes × Certificate)} {keys keys' : List PublicKey}
    (h : AcceptedUnder K t certs keys) (h' : AcceptedUnder K t certs keys') : keys = keys' := by
  induction h generalizing keys' with
  | pinned hpin =>
      cases h' with
      | pinned => rfl
      | anchored hpin' =>
          rw [hpin] at hpin'
          cases hpin'
  | anchored hpin hkey =>
      cases h' with
      | pinned hpin' =>
          rw [hpin] at hpin'
          cases hpin'
      | anchored _ hkey' => rw [Option.some.inj (hkey.symm.trans hkey')]
  | issued hkey hsigned _ ih =>
      cases h' with
      | issued hkey' _ hrest => rw [Option.some.inj (hkey.symm.trans hkey'), ih hrest]

/-- Each signature verifies under its key. -/
theorem AcceptedUnder.signed {certs : List (Bytes × Certificate)} {keys : List PublicKey}
    (h : AcceptedUnder K t certs keys) :
    ∀ p ∈ certs.zip keys, SignedUnder K t p.1.1 p.1.2 p.2 := by
  induction h with
  | pinned => simp
  | anchored hpin hkey =>
      rcases anchorKeyFor_some hkey with ⟨a, tbsDer, sigBytes, -, htbs, hsig, hused⟩
      intro p hp
      obtain rfl : p = (_, _) := by simpa using hp
      exact ⟨tbsDer, sigBytes, htbs, hsig, anchorKeyUsed_verifies hused⟩
  | issued hkey hsigned h ih =>
      intro p hp
      rcases List.mem_cons.mp hp with rfl | hp
      · exact hsigned
      · exact ih p hp

theorem signersAreP256_nil {leaf : Bytes × Certificate} :
    SignersAreP256 K t leaf [] ↔ spkiIsAnchor K t leaf.2 = .ok true ∨
      ∃ a, verifyingAnchor K t leaf = some a ∧ anchorIsP256 K t a = true := by
  constructor
  · intro h
    exact h.anchor
  · intro h
    exact ⟨by simp, h⟩

theorem signersAreP256_cons {leaf issuer : Bytes × Certificate}
    {above : List (Bytes × Certificate)} :
    SignersAreP256 K t leaf (issuer :: above) ↔
      spkiIsP256 K issuer.2 = true ∧ SignersAreP256 K t issuer above := by
  constructor
  · intro h
    rcases List.forall_mem_cons.mp h.issuers with ⟨hissuer, hissuers⟩
    exact ⟨hissuer, hissuers, h.anchor⟩
  · rintro ⟨hissuer, h⟩
    exact ⟨List.forall_mem_cons.mpr ⟨hissuer, h.issuers⟩, h.anchor⟩

/-- The accepting keys are P-256 keys exactly when the signers' keys are, by induction on the
chain. -/
theorem AcceptedUnder.isP256_iff (hcurves : K.CurvesDisjoint) {leaf : Bytes × Certificate}
    {above : List (Bytes × Certificate)} {keys : List PublicKey}
    (h : AcceptedUnder K t (leaf :: above) keys) :
    (∀ key ∈ keys, key.IsP256) ↔ SignersAreP256 K t leaf above := by
  induction above generalizing leaf keys with
  | nil =>
      rw [signersAreP256_nil]
      cases h with
      | pinned hpin => exact iff_of_true (by simp) (Or.inl hpin)
      | anchored hpin hkey =>
          rcases anchorKeyFor_some hkey with ⟨a, tbsDer, sigBytes, ha, -, -, hused⟩
          rw [List.forall_mem_singleton, anchorKeyUsed_isP256_iff hcurves hused]
          constructor
          · intro hp256
            exact Or.inr ⟨a, ha, hp256⟩
          · rintro (hpin' | ⟨a', ha', hp256⟩)
            · rw [hpin] at hpin'
              cases hpin'
            · have hsame : a = a' := Option.some.inj (ha.symm.trans ha')
              rw [hsame]
              exact hp256
  | cons issuer rest ih =>
      cases h with
      | issued hkey hsigned hrest =>
          rw [List.forall_mem_cons, signersAreP256_cons, certKey_isP256_iff hkey, ih hrest]

/-- **The signatures behind an acceptance**: each is verified under one key, and all of these are
P-256 keys exactly when every certificate above the leaf declares a P-256 key and the trust anchor
that vouches for the last one has a P-256 key. -/
theorem accepted_under_p256_iff (hcurves : K.CurvesDisjoint) {chain : List Bytes}
    {hostname : String} (h : verifyP256Chain K t chain hostname = .ok true) :
    ∃ leaf above, parseChain K chain = some (leaf :: above) ∧
      ∃ keys, AcceptedUnder K t (leaf :: above) keys ∧
        (∀ keys', AcceptedUnder K t (leaf :: above) keys' → keys' = keys) ∧
        (∀ p ∈ (leaf :: above).zip keys, SignedUnder K t p.1.1 p.1.2 p.2) ∧
        ((∀ key ∈ keys, key.IsP256) ↔ SignersAreP256 K t leaf above) := by
  rcases verifyP256Chain_iff.mp h with ⟨leaf, above, hparse, -, hpairs, hroot, -⟩
  rcases exists_acceptedUnder hpairs hroot with ⟨keys, hkeys⟩
  exact ⟨leaf, above, hparse, keys, hkeys, fun keys' h' => h'.unique hkeys, hkeys.signed,
    hkeys.isP256_iff hcurves⟩

/-! ## A P-384 trust anchor -/

/-- The SEC1 encoding of the anchor's key. -/
def p384Key : Bytes := 0x04 :: toBeBytes 96
  0xb44325eaf0bb16b1c5202ad47f335e36f0ca61a4c53a3e600d443391e9f0e6d41beb1ffb6a5372d56126f3123e1181c4362186c77189b82e95e79cfb5efd4d0f50e2fd83133f26e1be229e8aaa00f51bed580d78e55087dfeb18b6b0ef66d620

/-- The certificate of `leafCert`, signed with that key. -/
def p384SignedCert : P256Cert :=
  { leafCert with
    signature := toBeBytes 103
      0x30650230269d5d89aff3667a61393d3a3ba76a8146471e235c4f038b9b3d76df858e4d694cb4a4e4cf4280a1fd59ddd13447777e023100f212292c87a287ba8b739e435f7a7da2b008dba6639e0fd862b7c63ff540b6e4c430a77bc3954fe89d5b786b93e8f12c }

/-- Crates that know this certificate and trust this key. -/
def p384Pki : Crates :=
  { concreteCrates [p384SignedCert] [] [] with
    p384 := tableP256 [p384Key]
      [(p384Key, List.replicate 16 0 ++ toBeBytes 32 p384SignedCert.digest,
        p384SignedCert.signature)]
    tlsServerRoots := [⟨spkiContent
      ⟨⟨ID_EC_PUBLIC_KEY, some ⟨0x06, P384_OID.octets⟩⟩, ⟨0, p384Key⟩⟩⟩] }

theorem smallPki_curvesDisjoint : smallPki.CurvesDisjoint := fun _ _ => rfl

theorem accepted_under_p256_iff_leaf :
    verifyP256Chain smallPki .host64 [leafCert.der] "a.b" = .ok true ∧
      ∃ keys, AcceptedUnder smallPki .host64 [(leafCert.der, leafCert.parsed)] keys ∧
        ∀ key ∈ keys, key.IsP256 := by
  have haccept : verifyP256Chain smallPki .host64 [leafCert.der] "a.b" = .ok true := by
    decide +kernel
  refine ⟨haccept, ?_⟩
  rcases accepted_under_p256_iff smallPki_curvesDisjoint haccept with
    ⟨leaf, above, hparse, keys, hkeys, -, -, hiff⟩
  have hchain : parseChain smallPki [leafCert.der] = some [(leafCert.der, leafCert.parsed)] := by
    decide +kernel
  rw [hchain] at hparse
  cases hparse
  have hsigners : SignersAreP256 smallPki .host64 (leafCert.der, leafCert.parsed) [] := by
    refine ⟨by simp, Or.inr ⟨⟨spkiContent rootCert.spki⟩, ?_, ?_⟩⟩
    · decide +kernel
    · decide +kernel
  exact ⟨keys, hkeys, hiff.mpr hsigners⟩

/-- The leaf signed by the P-384 key is accepted. -/
theorem accepted_under_p384 :
    verifyP256Chain p384Pki .host64 [p384SignedCert.der] "a.b" = .ok true ∧
      AcceptedUnder p384Pki .host64 [(p384SignedCert.der, p384SignedCert.parsed)]
        [.p384 p384Key] ∧
      ¬(PublicKey.p384 p384Key).IsP256 := by
  refine ⟨by decide +kernel, .anchored ?_ ?_, ?_⟩
  · decide +kernel
  · decide +kernel
  · exact id

end ProvenoOracle
