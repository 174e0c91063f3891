import ProvenoOracle.Tls.X509
import ProvenoOracle.Tls.DerReader

/-! # Certificate signatures

The signature checks of `tls/verify.rs`. They are written twice in the source: once against
the parsed issuer certificate (`verifyCertSig`), once against a trust anchor whose
SubjectPublicKeyInfo is taken apart by hand (`spkiAlgAndKey`, `anchorVerifies`). Both are
tied to one notion: a `PublicKey` under which a certificate's TBS bytes verify
(`SignedUnder`). `verifyCertSig_iff` and `anchorVerifies_iff` say which keys each path uses.
-/

set_option autoImplicit false

namespace ProvenoOracle

variable (K : Crates) (t : Target)

/-! ## Signature schemes -/

/-- The 32-byte prehash of `ecdsa_p256_verify`: the digest, cut to the field width. -/
def p256Prehash (sigAlg : ObjectIdentifier) (tbsDer : Bytes) : Option Bytes :=
  if sigAlg = SHA256_ECDSA then some (K.sha256 tbsDer).val
  else if sigAlg = SHA384_ECDSA then some ((K.sha384 tbsDer).val.take 32)
  else if sigAlg = SHA512_ECDSA then some ((K.sha512 tbsDer).val.take 32)
  else none

/-- The 48-byte prehash of `ecdsa_p384_verify`: the digest, padded with leading zeros or cut. -/
def p384Prehash (sigAlg : ObjectIdentifier) (tbsDer : Bytes) : Option Bytes :=
  if sigAlg = SHA256_ECDSA then some (List.replicate 16 0 ++ (K.sha256 tbsDer).val)
  else if sigAlg = SHA384_ECDSA then some (K.sha384 tbsDer).val
  else if sigAlg = SHA512_ECDSA then some ((K.sha512 tbsDer).val.take 48)
  else none

/-- The common body of the two ECDSA checks. -/
def ecdsaVerify (C : EcdsaCrate) (prehash : ObjectIdentifier → Bytes → Option Bytes)
    (tbsDer sigBytes : Bytes) (sigAlg : ObjectIdentifier) (keyBytes : Bytes) : Bool :=
  match C.fromSec1Bytes keyBytes with
  | none => false
  | some vk =>
      match C.signatureFromDer sigBytes with
      | none => false
      | some sig =>
          match prehash sigAlg tbsDer with
          | none => false
          | some h => C.verifyPrehash vk h sig

/-- `ecdsa_p256_verify` -/
def ecdsaP256Verify (tbsDer sigBytes : Bytes) (sigAlg : ObjectIdentifier) (keyBytes : Bytes) :
    Bool :=
  ecdsaVerify K.p256 (p256Prehash K) tbsDer sigBytes sigAlg keyBytes

/-- `ecdsa_p384_verify` -/
def ecdsaP384Verify (tbsDer sigBytes : Bytes) (sigAlg : ObjectIdentifier) (keyBytes : Bytes) :
    Bool :=
  ecdsaVerify K.p384 (p384Prehash K) tbsDer sigBytes sigAlg keyBytes

/-- One arm of `verify_cert_sig_rsa`: decode the signature, then verify it with digest `d`. -/
def rsaVerifyWith (R : RsaCrate) (d : Sha2) (rsaKey : R.RsaPublicKey)
    (tbsDer sigBytes : Bytes) : Bool :=
  match R.signatureTryFrom sigBytes with
  | none => false
  | some sig => R.verify d rsaKey tbsDer sig

/-- `verify_cert_sig_rsa`, on the issuer's key bytes. -/
def rsaVerify (R : RsaCrate) (tbsDer sigBytes : Bytes) (sigAlg : ObjectIdentifier)
    (keyBytes : Bytes) : Bool :=
  match R.fromPkcs1Der keyBytes with
  | none => false
  | some rsaKey =>
      if sigAlg = SHA256_RSA then rsaVerifyWith R .sha256 rsaKey tbsDer sigBytes
      else if sigAlg = SHA384_RSA then rsaVerifyWith R .sha384 rsaKey tbsDer sigBytes
      else if sigAlg = SHA512_RSA then rsaVerifyWith R .sha512 rsaKey tbsDer sigBytes
      else false

/-! ## The issuer's certificate -/

/-- `verify_cert_sig_rsa`: the key bytes come from the issuer's SubjectPublicKeyInfo. -/
def verifyCertSigRsa (tbsDer sigBytes : Bytes) (sigAlg : ObjectIdentifier)
    (issuer : Certificate) : Bool :=
  match issuer.tbsCertificate.subjectPublicKeyInfo.subjectPublicKey.asBytes with
  | none => false
  | some keyBytes => rsaVerify K.rsa tbsDer sigBytes sigAlg keyBytes

/-- `verify_cert_sig`: verify `childDer`'s signature using `issuer`'s public key. -/
def verifyCertSig (childDer : Bytes) (child issuer : Certificate) : Run Bool := do
  let issuerSpki := issuer.tbsCertificate.subjectPublicKeyInfo
  let issuerKeyAlg := issuerSpki.algorithm.oid
  match ← extractTbsDer t childDer with
  | none => return false
  | some tbsDer =>
      match child.signature.asBytes with
      | none => return false
      | some sigBytes =>
          let sigAlg := child.signatureAlgorithm.oid
          if issuerKeyAlg = ID_EC_PUBLIC_KEY then
            match issuerSpki.subjectPublicKey.asBytes with
            | none => return false
            | some keyBytes =>
                let curveOid := issuerSpki.algorithm.parameters.bind K.decodeAsOid
                if curveOid = some SECP256R1 then
                  return ecdsaP256Verify K tbsDer sigBytes sigAlg keyBytes
                else if curveOid = some P384_OID then
                  return ecdsaP384Verify K tbsDer sigBytes sigAlg keyBytes
                else return false
          else if issuerKeyAlg = RSA_OID then
            return verifyCertSigRsa K tbsDer sigBytes sigAlg issuer
          else return false

/-! ## The trust anchors -/

/-- `spki_alg_and_key`: the algorithm OID and the raw key bytes of the content of a
SubjectPublicKeyInfo. -/
def spkiAlgAndKey (spkiInner : Bytes) : Run (Option (ObjectIdentifier × Bytes)) := do
  match ← tl t spkiInner 0x30 with
  | none => return none
  | some (algSeq, rest) =>
      match ← tl t algSeq 0x06 with
      | none => return none
      | some (oidBytes, _) =>
          match ← tl t rest 0x03 with
          | none => return none
          | some (bs, _) =>
              if bs.isEmpty then return none
              let keyBytes ← sliceFrom bs 1
              let oidDer := 0x06 :: UInt8.ofNat oidBytes.length :: oidBytes
              match K.oidFromDer oidDer with
              | none => return none
              | some oid => return some (oid, keyBytes)

/-- The RSA arm of the anchor loop. Unlike `verify_cert_sig_rsa` it decodes the signature before
it looks at the signature algorithm. -/
def anchorRsaVerify (R : RsaCrate) (tbsDer sigBytes : Bytes) (sigAlg : ObjectIdentifier)
    (keyBytes : Bytes) : Bool :=
  match R.fromPkcs1Der keyBytes with
  | none => false
  | some rsaKey =>
      match R.signatureTryFrom sigBytes with
      | none => false
      | some sig =>
          if sigAlg = SHA256_RSA then R.verify .sha256 rsaKey tbsDer sig
          else if sigAlg = SHA384_RSA then R.verify .sha384 rsaKey tbsDer sig
          else if sigAlg = SHA512_RSA then R.verify .sha512 rsaKey tbsDer sig
          else false

/-- One round of the anchor loop: does this anchor's key verify the signature? -/
def anchorVerifies (anchor : TrustAnchor) (tbsDer sigBytes : Bytes)
    (sigAlg : ObjectIdentifier) : Run Bool := do
  match ← spkiAlgAndKey K t anchor.subjectPublicKeyInfo with
  | none => return false
  | some (keyAlg, keyBytes) =>
      if keyAlg = ID_EC_PUBLIC_KEY then
        -- the curve is unknown here, so both are tried
        return ecdsaP256Verify K tbsDer sigBytes sigAlg keyBytes
          || ecdsaP384Verify K tbsDer sigBytes sigAlg keyBytes
      else if keyAlg = RSA_OID then
        return anchorRsaVerify K.rsa tbsDer sigBytes sigAlg keyBytes
      else return false

/-- The anchor loop of `is_signed_by_mozilla_root`. -/
def someAnchorVerifies (tbsDer sigBytes : Bytes) (sigAlg : ObjectIdentifier) :
    List TrustAnchor → Run Bool
  | [] => pure false
  | anchor :: rest => do
      if ← anchorVerifies K t anchor tbsDer sigBytes sigAlg then return true
      someAnchorVerifies tbsDer sigBytes sigAlg rest

/-- Case 1 of `is_signed_by_mozilla_root`: the certificate's SubjectPublicKeyInfo content is
that of a trust anchor. -/
def spkiIsAnchor (cert : Certificate) : Run Bool := do
  match K.spkiToDer cert.tbsCertificate.subjectPublicKeyInfo with
  | none => return false
  | some fullSpki =>
      match ← derInner t fullSpki 0x30 with
      | none => return false
      | some innerSpki =>
          return K.tlsServerRoots.any fun a => a.subjectPublicKeyInfo = innerSpki

/-- `is_signed_by_mozilla_root` -/
def isSignedByMozillaRoot (certDer : Bytes) (cert : Certificate) : Run Bool := do
  if ← spkiIsAnchor K t cert then return true
  match ← extractTbsDer t certDer with
  | none => return false
  | some tbsDer =>
      match cert.signature.asBytes with
      | none => return false
      | some sigBytes =>
          someAnchorVerifies K t tbsDer sigBytes cert.signatureAlgorithm.oid K.tlsServerRoots

/-! ## Keys and signatures, independently of the path -/

/-- A public key together with the scheme it is used with. -/
inductive PublicKey where
  | p256 (sec1 : Bytes)
  | p384 (sec1 : Bytes)
  | rsa (pkcs1 : Bytes)
  deriving DecidableEq

/-- The key verifies the signature over `tbsDer`. -/
def PublicKey.verifies (sigAlg : ObjectIdentifier) (tbsDer sigBytes : Bytes) :
    PublicKey → Bool
  | .p256 keyBytes => ecdsaP256Verify K tbsDer sigBytes sigAlg keyBytes
  | .p384 keyBytes => ecdsaP384Verify K tbsDer sigBytes sigAlg keyBytes
  | .rsa keyBytes => rsaVerify K.rsa tbsDer sigBytes sigAlg keyBytes

/-- The public key of a parsed certificate, when it is of a supported kind. -/
def certKey (cert : Certificate) : Option PublicKey :=
  let spki := cert.tbsCertificate.subjectPublicKeyInfo
  match spki.subjectPublicKey.asBytes with
  | none => none
  | some keyBytes =>
      if spki.algorithm.oid = ID_EC_PUBLIC_KEY then
        let curveOid := spki.algorithm.parameters.bind K.decodeAsOid
        if curveOid = some SECP256R1 then some (.p256 keyBytes)
        else if curveOid = some P384_OID then some (.p384 keyBytes)
        else none
      else if spki.algorithm.oid = RSA_OID then some (.rsa keyBytes)
      else none

/-- The public keys of a trust anchor. An EC anchor's curve is not looked at, so it stands for
a key on either curve. -/
def AnchorKey (anchor : TrustAnchor) (key : PublicKey) : Prop :=
  ∃ keyAlg keyBytes, spkiAlgAndKey K t anchor.subjectPublicKeyInfo = .ok (some (keyAlg, keyBytes)) ∧
    ((keyAlg = ID_EC_PUBLIC_KEY ∧ (key = .p256 keyBytes ∨ key = .p384 keyBytes)) ∨
      (keyAlg = RSA_OID ∧ key = .rsa keyBytes))

/-- **The certificate's own TBS bytes verify under `key`**, with the certificate's signature
and signature algorithm. -/
def SignedUnder (certDer : Bytes) (cert : Certificate) (key : PublicKey) : Prop :=
  ∃ tbsDer sigBytes, extractTbsDer t certDer = .ok (some tbsDer) ∧
    cert.signature.asBytes = some sigBytes ∧
    key.verifies K cert.signatureAlgorithm.oid tbsDer sigBytes = true

/-! ## What each path checks -/

variable {K t}

/-- The two RSA checks agree on every key, algorithm and signature. -/
theorem anchorRsaVerify_eq (R : RsaCrate) (tbsDer sigBytes : Bytes) (sigAlg : ObjectIdentifier)
    (keyBytes : Bytes) :
    anchorRsaVerify R tbsDer sigBytes sigAlg keyBytes
      = rsaVerify R tbsDer sigBytes sigAlg keyBytes := by
  unfold anchorRsaVerify rsaVerify rsaVerifyWith
  cases R.fromPkcs1Der keyBytes with
  | none => rfl
  | some rsaKey =>
      cases R.signatureTryFrom sigBytes with
      | none => simp only [ite_self]
      | some sig => rfl

theorem ecOid_ne_rsaOid : ID_EC_PUBLIC_KEY ≠ RSA_OID := by decide

/-- **`verify_cert_sig`** accepts exactly when the child's own TBS bytes verify under the
issuer's key. -/
theorem verifyCertSig_iff {childDer : Bytes} {child issuer : Certificate} :
    verifyCertSig K t childDer child issuer = .ok true ↔
      ∃ key, certKey K issuer = some key ∧ SignedUnder K t childDer child key := by
  unfold verifyCertSig certKey SignedUnder
  cases htbs : extractTbsDer t childDer with
  | error p => simp
  | ok o =>
      cases o with
      | none => simp
      | some tbsDer =>
          cases hsig : child.signature.asBytes with
          | none => simp
          | some sigBytes =>
              cases hkey : issuer.tbsCertificate.subjectPublicKeyInfo.subjectPublicKey.asBytes with
              | none => simp [verifyCertSigRsa, hkey]
              | some keyBytes =>
                  simp only [Run.ok_bind, Run.pure_eq, verifyCertSigRsa, hkey]
                  -- one case for each arm of the dispatch on the issuer's key algorithm
                  split_ifs <;> simp [PublicKey.verifies]

theorem anchorVerifies_iff {anchor : TrustAnchor} {tbsDer sigBytes : Bytes}
    {sigAlg : ObjectIdentifier} :
    anchorVerifies K t anchor tbsDer sigBytes sigAlg = .ok true ↔
      ∃ key, AnchorKey K t anchor key ∧ key.verifies K sigAlg tbsDer sigBytes = true := by
  unfold anchorVerifies AnchorKey
  cases hspki : spkiAlgAndKey K t anchor.subjectPublicKeyInfo with
  | error p => simp
  | ok o =>
      cases o with
      | none => simp
      | some ak =>
          obtain ⟨keyAlg, keyBytes⟩ := ak
          simp only [Run.ok_bind, Run.pure_eq, anchorRsaVerify_eq]
          split_ifs with hec hrsa
          · -- trying both curves is having a key on either
            subst hec
            simp [PublicKey.verifies, ecOid_ne_rsaOid, or_and_right, exists_or]
          · subst hrsa
            simp [PublicKey.verifies, hec]
          · simp [hec, hrsa]

/-- The anchor loop accepts only through one of the anchors. -/
theorem someAnchorVerifies_true {tbsDer sigBytes : Bytes} {sigAlg : ObjectIdentifier}
    {anchors : List TrustAnchor}
    (h : someAnchorVerifies K t tbsDer sigBytes sigAlg anchors = .ok true) :
    ∃ a ∈ anchors, anchorVerifies K t a tbsDer sigBytes sigAlg = .ok true := by
  induction anchors with
  | nil => cases h
  | cons a rest ih =>
      obtain ⟨b, hb, h⟩ := Run.bind_eq_ok h
      cases b with
      | true => exact ⟨a, by simp, hb⟩
      | false =>
          rcases ih h with ⟨a', ha', hv⟩
          exact ⟨a', by simp [ha'], hv⟩

/-- A failed anchor loop has tried every anchor. -/
theorem someAnchorVerifies_false {tbsDer sigBytes : Bytes} {sigAlg : ObjectIdentifier}
    {anchors : List TrustAnchor}
    (h : someAnchorVerifies K t tbsDer sigBytes sigAlg anchors = .ok false) :
    ∀ a ∈ anchors, anchorVerifies K t a tbsDer sigBytes sigAlg = .ok false := by
  induction anchors with
  | nil => simp
  | cons a rest ih =>
      obtain ⟨b, hb, h⟩ := Run.bind_eq_ok h
      cases b with
      | true => cases h
      | false =>
          intro a' ha'
          rcases List.mem_cons.mp ha' with rfl | ha'
          · exact hb
          · exact ih h a' ha'

/-- The anchor loop reaches an accepting anchor when no anchor before it panics. -/
theorem someAnchorVerifies_of_mem {tbsDer sigBytes : Bytes} {sigAlg : ObjectIdentifier}
    {anchors : List TrustAnchor} {a : TrustAnchor} (ha : a ∈ anchors)
    (hv : anchorVerifies K t a tbsDer sigBytes sigAlg = .ok true)
    (hread : ∀ a ∈ anchors, ∃ b, anchorVerifies K t a tbsDer sigBytes sigAlg = .ok b) :
    someAnchorVerifies K t tbsDer sigBytes sigAlg anchors = .ok true := by
  induction anchors with
  | nil => cases ha
  | cons a' rest ih =>
      rcases hread a' (by simp) with ⟨b, hb⟩
      rw [someAnchorVerifies, hb, Run.ok_bind]
      cases b with
      | true => rfl
      | false =>
          rcases List.mem_cons.mp ha with rfl | hrest
          · -- the accepting anchor does not answer `false`
            rw [hv] at hb
            cases hb
          · exact ih hrest fun a ha => hread a (by simp [ha])

end ProvenoOracle
