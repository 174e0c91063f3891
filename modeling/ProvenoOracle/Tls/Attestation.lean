import ProvenoOracle.Tls.ConcreteCrates
import ProvenoOracle.Tls.NoPanic

/-! # Attestation records

`TlsAttestationRecord`, its re-verification (`reverify_attestations`) and the list of field
elements that `compute_tls_attestation_hash` feeds to Poseidon2.

Re-verification is a map over the records, and a record's result is a function of its chain and
its hostname (`reverifyRecord_eq`). The properties at the end are read off from this:
`reverifyAttestations_sound` collects them.
-/

set_option autoImplicit false

namespace ProvenoOracle

/-! ## Records -/

/-- `TlsAttestationRecord`: a certificate chain captured during an HTTPS tool call. -/
structure TlsAttestationRecord where
  /-- DER-encoded certificates, leaf first; empty when no attestation is available. -/
  certChainDer : List Bytes
  p256Verified : Bool
  hostname : String
  /-- The leaf's `not_after`, Unix seconds. -/
  certNotAfter : UInt64
  deriving DecidableEq

namespace TlsAttestationRecord

/-- `TlsAttestationRecord::unavailable` -/
def unavailable : TlsAttestationRecord := ⟨[], false, "", 0⟩

/-- `TlsAttestationRecord::p256_verified` -/
def verified (certChainDer : List Bytes) (hostname : String) (certNotAfter : UInt64) :
    TlsAttestationRecord :=
  ⟨certChainDer, true, hostname, certNotAfter⟩

end TlsAttestationRecord

open TlsAttestationRecord

variable (K : Crates) (t : Target)

/-- `extract_cert_not_after`: the leaf's `not_after` in Unix seconds, 0 on parse failure. -/
def extractCertNotAfter (certDer : Bytes) : UInt64 :=
  match K.certificateFromDer certDer with
  | some cert => cert.tbsCertificate.notAfter
  | none => 0

/-- The affine coordinates of an uncompressed SEC1 P-256 point: 0x04 || x[32] || y[32]. -/
def uncompressedPoint (keyBytes : Bytes) : Option (ByteArr 32 × ByteArr 32) :=
  if h : keyBytes.length = 65 ∧ keyBytes.head? = some 0x04 then
    some (⟨(keyBytes.take 33).drop 1, by simp [h.1]⟩, ⟨(keyBytes.take 65).drop 33, by simp [h.1]⟩)
  else none

/-- `extract_p256_pubkey_xy` -/
def extractP256PubkeyXy (certDer : Bytes) : Option (ByteArr 32 × ByteArr 32) := do
  let cert ← K.certificateFromDer certDer
  if !spkiIsP256 K cert then none
  else
    let keyBytes ← cert.tbsCertificate.subjectPublicKeyInfo.subjectPublicKey.asBytes
    uncompressedPoint keyBytes

/-- One round of `reverify_attestations`. -/
def reverifyRecord (r : TlsAttestationRecord) : Run TlsAttestationRecord := do
  match r.certChainDer with
  | [] => return unavailable
  | leafDer :: _ =>
      if r.hostname.isEmpty then return unavailable
      if !(← verifyP256Chain K t r.certChainDer r.hostname) then return unavailable
      return verified r.certChainDer r.hostname (extractCertNotAfter K leafDer)

/-- `reverify_attestations`: each record is checked afresh, in order. -/
def reverifyAttestations : List TlsAttestationRecord → Run (List TlsAttestationRecord)
  | [] => pure []
  | r :: records => do
      let r' ← reverifyRecord K t r
      return r' :: (← reverifyAttestations records)

/-! ## The hash -/

/-- `proveno::host::poseidon2`: Poseidon2 over BN254 with the byte conversions around it. -/
structure PoseidonCrate where
  Field : Type
  u8ToField : UInt8 → Field
  poseidon2Hash : List Field → Field
  fieldToBeBytes32 : Field → ByteArr 32

/-- The key bytes that one certificate contributes: `x || y`, or nothing. -/
def certKeyBytes (certDer : Bytes) : Bytes :=
  match extractP256PubkeyXy K certDer with
  | some (x, y) => x.val ++ y.val
  | none => []

/-- The key bytes that one record contributes. -/
def recordKeyBytes (r : TlsAttestationRecord) : Bytes :=
  if !r.p256Verified then [] else r.certChainDer.flatMap (certKeyBytes K)

/-- The `fields` of `compute_tls_attestation_hash`: one field element a byte. -/
def attestationFields {F : Type} (u8ToField : UInt8 → F) (records : List TlsAttestationRecord) :
    List F :=
  records.flatMap fun r => (recordKeyBytes K r).map u8ToField

/-- `compute_tls_attestation_hash` -/
def computeTlsAttestationHash (P : PoseidonCrate) (records : List TlsAttestationRecord) :
    ByteArr 32 :=
  P.fieldToBeBytes32 (P.poseidon2Hash (attestationFields K P.u8ToField records))

/-- `empty_tls_attestation_hash` -/
def emptyTlsAttestationHash (P : PoseidonCrate) : ByteArr 32 :=
  P.fieldToBeBytes32 (P.poseidon2Hash [])

variable {K t}

theorem attestationFields_cons {F : Type} (f : UInt8 → F) (r : TlsAttestationRecord)
    (records : List TlsAttestationRecord) :
    attestationFields K f (r :: records)
      = (recordKeyBytes K r).map f ++ attestationFields K f records := rfl

/-- An unavailable record contributes nothing. -/
theorem recordKeyBytes_unavailable : recordKeyBytes K unavailable = [] := rfl

/-! ## One record -/

variable (K t) in
/-- The record passes re-verification: neither its chain nor its hostname is missing, and the
chain verifies for the hostname. -/
def passesReverification (r : TlsAttestationRecord) : Bool :=
  !r.certChainDer.isEmpty && !r.hostname.isEmpty
    && verifyP256Chain K t r.certChainDer r.hostname = .ok true

variable (K) in
/-- The verified record that a passing chain and hostname give. -/
def reverifiedAs (r : TlsAttestationRecord) : TlsAttestationRecord :=
  verified r.certChainDer r.hostname (extractCertNotAfter K (r.certChainDer.headD []))

/-- **A record's result**: verified if it passes, else unavailable. -/
theorem reverifyRecord_eq {r r' : TlsAttestationRecord} (h : reverifyRecord K t r = .ok r') :
    r' = if passesReverification K t r then reverifiedAs K r else unavailable := by
  unfold reverifyRecord at h
  unfold passesReverification reverifiedAs
  cases hchain : r.certChainDer with
  | nil =>
      rw [hchain] at h
      cases h
      rfl
  | cons leafDer rest =>
      rw [hchain] at h
      cases hhost : r.hostname.isEmpty with
      | true =>
          simp only [hhost, if_true, Run.pure_eq] at h
          cases h
          rfl
      | false =>
          -- the verdict of `verify_p256_chain` decides
          simp only [hhost, Bool.false_eq_true, if_false] at h
          rcases Run.bind_eq_ok h with ⟨b, hb, h⟩
          cases b with
          | false =>
              cases h
              simp [hb]
          | true =>
              cases h
              simp [hb]

/-- A record that passes has a parsed leaf. -/
theorem leaf_of_passes {r : TlsAttestationRecord} (h : passesReverification K t r = true) :
    ∃ leafDer rest leaf, r.certChainDer = leafDer :: rest ∧
      K.certificateFromDer leafDer = some leaf ∧ spkiIsP256 K leaf = true := by
  simp only [passesReverification, Bool.and_eq_true, decide_eq_true_eq] at h
  rcases verifyP256Chain_iff.mp h.2 with ⟨leaf, above, hparse, hp256, -⟩
  cases hchain : r.certChainDer with
  | nil =>
      rw [hchain] at hparse
      cases hparse
  | cons leafDer rest =>
      rw [hchain] at hparse
      rcases parseChain_cons.mp hparse with ⟨cert, certs, hcert, -, heq⟩
      rcases List.cons.inj heq with ⟨rfl, -⟩
      exact ⟨leafDer, rest, cert, rfl, hcert, hp256⟩

/-- Only the chain and the hostname are read. -/
theorem reverifyRecord_congr {r s : TlsAttestationRecord} (hchain : r.certChainDer = s.certChainDer)
    (hhost : r.hostname = s.hostname) : reverifyRecord K t r = reverifyRecord K t s := by
  unfold reverifyRecord
  rw [hchain, hhost]

/-- A result is a fixed point. -/
theorem reverifyRecord_idem {r r' : TlsAttestationRecord} (h : reverifyRecord K t r = .ok r') :
    reverifyRecord K t r' = .ok r' := by
  have heq := reverifyRecord_eq h
  split at heq
  · -- a verified record keeps its chain and its hostname
    rw [← h]
    subst heq
    exact reverifyRecord_congr rfl rfl
  · subst heq
    rfl

theorem reverifyRecord_returns (ht : 34 ≤ t.bits) (hread : AnchorsReadable K t)
    (r : TlsAttestationRecord) : Run.Returns (reverifyRecord K t r) := by
  unfold reverifyRecord
  split
  · exact Run.returns_ok _
  · split
    · exact Run.returns_ok _
    · apply Run.Returns.bind (verifyP256Chain_returns ht hread _ _)
      intro b
      split <;> exact Run.returns_ok _

/-! ## Lists of records -/

/-- Re-verification of a list is re-verification record by record. -/
theorem reverifyAttestations_iff {records out : List TlsAttestationRecord} :
    reverifyAttestations K t records = .ok out ↔
      List.Forall₂ (fun r r' => reverifyRecord K t r = .ok r') records out := by
  induction records generalizing out with
  | nil =>
      rw [List.forall₂_nil_left_iff]
      constructor
      · intro h
        cases h
        rfl
      · rintro rfl
        rfl
  | cons r records ih =>
      rw [List.forall₂_cons_left_iff]
      constructor
      · intro h
        rcases Run.bind_eq_ok h with ⟨r', hr, h⟩
        rcases Run.bind_eq_ok h with ⟨rest, hrest, h⟩
        cases h
        exact ⟨r', rest, hr, ih.mp hrest, rfl⟩
      · rintro ⟨r', rest, hr, hrest, rfl⟩
        rw [reverifyAttestations, hr, Run.ok_bind, ih.mpr hrest]
        rfl

/-- Every record has a result. -/
theorem exists_reverified {records out : List TlsAttestationRecord} {r : TlsAttestationRecord}
    (h : List.Forall₂ (fun r r' => reverifyRecord K t r = .ok r') records out) (hr : r ∈ records) :
    ∃ r' ∈ out, reverifyRecord K t r = .ok r' := by
  induction h with
  | nil => cases hr
  | cons hhead _ ih =>
      rcases List.mem_cons.mp hr with rfl | hr
      · exact ⟨_, by simp, hhead⟩
      · rcases ih hr with ⟨r', hr', heq⟩
        exact ⟨r', by simp [hr'], heq⟩

/-- Every result comes from a record. -/
theorem exists_record {records out : List TlsAttestationRecord} {r' : TlsAttestationRecord}
    (h : List.Forall₂ (fun r r' => reverifyRecord K t r = .ok r') records out) (hr' : r' ∈ out) :
    ∃ r ∈ records, reverifyRecord K t r = .ok r' := by
  induction h with
  | nil => cases hr'
  | cons hhead _ ih =>
      rcases List.mem_cons.mp hr' with rfl | hr'
      · exact ⟨_, by simp, hhead⟩
      · rcases ih hr' with ⟨r, hr, heq⟩
        exact ⟨r, by simp [hr], heq⟩

/-- The key bytes of the result are those of the records that pass. -/
theorem attestationFields_reverified {F : Type} (f : UInt8 → F)
    {records out : List TlsAttestationRecord} (h : reverifyAttestations K t records = .ok out) :
    attestationFields K f out
      = attestationFields K f
          ((records.filter (passesReverification K t)).map (reverifiedAs K)) := by
  induction reverifyAttestations_iff.mp h with
  | nil => rfl
  | @cons r r' records out hr hrest ih =>
      have hout := ih (reverifyAttestations_iff.mpr hrest)
      have hr' := reverifyRecord_eq hr
      cases hpass : passesReverification K t r with
      | true =>
          rw [if_pos hpass] at hr'
          rw [attestationFields_cons, hout, hr', List.filter_cons_of_pos hpass, List.map_cons,
            attestationFields_cons]
      | false =>
          -- the record is replaced by an unavailable one, and drops out of the filtered list
          have hfails : ¬passesReverification K t r = true := by simp [hpass]
          rw [if_neg hfails] at hr'
          rw [attestationFields_cons, hout, hr', List.filter_cons_of_neg hfails,
            recordKeyBytes_unavailable, List.map_nil, List.nil_append]

/-- **The degraded state**: when no record passes, the hash is the one of an empty attestation. -/
theorem computeTlsAttestationHash_of_none_passes (P : PoseidonCrate)
    {records out : List TlsAttestationRecord} (h : reverifyAttestations K t records = .ok out)
    (hnone : ∀ r ∈ records, passesReverification K t r = false) :
    computeTlsAttestationHash K P out = emptyTlsAttestationHash P := by
  have hfilter : records.filter (passesReverification K t) = [] := by
    rw [List.filter_eq_nil_iff]
    intro r hr
    simp [hnone r hr]
  rw [computeTlsAttestationHash, attestationFields_reverified _ h, hfilter]
  rfl

/-! ## What re-verification trusts -/

/-- The two records agree on what re-verification reads. -/
def SameChainAndHostname (r s : TlsAttestationRecord) : Prop :=
  r.certChainDer = s.certChainDer ∧ r.hostname = s.hostname

variable (K) in
/-- What a record may become: unavailable, or verified with its chain, its hostname and the
`not_after` of its parsed leaf. -/
def ReverifiedFrom (r r' : TlsAttestationRecord) : Prop :=
  r' = unavailable ∨
    (r'.p256Verified = true ∧ r'.certChainDer = r.certChainDer ∧ r'.hostname = r.hostname ∧
      r.hostname ≠ "" ∧
      ∃ leafDer rest leaf, r.certChainDer = leafDer :: rest ∧
        K.certificateFromDer leafDer = some leaf ∧ r'.certNotAfter = leaf.tbsCertificate.notAfter)

variable (K t) in
/-- **Re-verification trusts nothing but chains and hostnames.** -/
structure TrustsChainAndHostname (P : PoseidonCrate) : Prop where
  /-- Records that agree on chain and hostname give the same result. -/
  agree : ∀ records records', List.Forall₂ SameChainAndHostname records records' →
    reverifyAttestations K t records = reverifyAttestations K t records'
  /-- Record by record, in order, the result is what the record may become. -/
  outputs : ∀ records out, reverifyAttestations K t records = .ok out →
    List.Forall₂ (ReverifiedFrom K) records out
  /-- A second pass changes nothing. -/
  idempotent : ∀ records out, reverifyAttestations K t records = .ok out →
    reverifyAttestations K t out = .ok out
  /-- Lists with the same passing records, in the same order, have the same hash. -/
  hash : ∀ records records' out out',
    records.filter (passesReverification K t) = records'.filter (passesReverification K t) →
    reverifyAttestations K t records = .ok out → reverifyAttestations K t records' = .ok out' →
    computeTlsAttestationHash K P out = computeTlsAttestationHash K P out'
  /-- On a target wider than 33 bits every list is re-verified. -/
  total : 34 ≤ t.bits → AnchorsReadable K t →
    ∀ records, Run.Returns (reverifyAttestations K t records)

theorem reverifiedFrom_of_reverifyRecord {r r' : TlsAttestationRecord}
    (h : reverifyRecord K t r = .ok r') : ReverifiedFrom K r r' := by
  have heq := reverifyRecord_eq h
  split at heq
  · next hpass =>
    rcases leaf_of_passes hpass with ⟨leafDer, rest, leaf, hchain, hleaf, -⟩
    have hhost : r.hostname ≠ "" := by
      intro hempty
      simp [passesReverification, hempty] at hpass
    subst heq
    refine Or.inr ⟨rfl, rfl, rfl, hhost, leafDer, rest, leaf, hchain, hleaf, ?_⟩
    simp [reverifiedAs, verified, hchain, extractCertNotAfter, hleaf]
  · exact Or.inl heq

/-- **`reverify_attestations`**, for any crates, any target and any Poseidon2. -/
theorem reverifyAttestations_sound (K : Crates) (t : Target) (P : PoseidonCrate) :
    TrustsChainAndHostname K t P where
  agree records records' h := by
    induction h with
    | nil => rfl
    | cons hr hrest ih =>
        rw [reverifyAttestations, reverifyAttestations, reverifyRecord_congr hr.1 hr.2, ih]
  outputs records out h :=
    (reverifyAttestations_iff.mp h).imp fun _ _ hr => reverifiedFrom_of_reverifyRecord hr
  idempotent records out h := by
    rw [reverifyAttestations_iff] at h ⊢
    induction h with
    | nil => exact .nil
    | cons hr _ ih => exact .cons (reverifyRecord_idem hr) ih
  hash records records' out out' hfilter h h' := by
    rw [computeTlsAttestationHash, computeTlsAttestationHash, attestationFields_reverified _ h,
      attestationFields_reverified _ h', hfilter]
  total ht hread records := by
    induction records with
    | nil => exact Run.returns_ok _
    | cons r records ih =>
        apply Run.Returns.bind (reverifyRecord_returns ht hread r)
        intro r'
        exact Run.Returns.bind ih fun rest => Run.returns_ok _

end ProvenoOracle
