import ProvenoOracle.Codec.SelfDelimiting
import ProvenoOracle.Tls.Attestation

/-! # What the attestation hash commits to

`compute_tls_attestation_hash` hashes a flat list of field elements: the keys of all
certificates of all verified records, 64 bytes a key, with nothing between them. So the list
determines the sequence of keys (`attestation_binds_key_sequence`), but neither where one record
ends and the next begins, nor that a record has contributed at all: a leaf key that is not an
uncompressed point is skipped (`commitsServerKeys_iff`).
-/

set_option autoImplicit false

namespace ProvenoOracle

open Codec TlsAttestationRecord

variable (K : Crates)

/-! ## The keys of a record -/

/-- A P-256 public key: affine coordinates, 32 bytes each. -/
abbrev PointXy := ByteArr 32 × ByteArr 32

/-- The bytes of a key. -/
def PointXy.bytes (k : PointXy) : Bytes := k.1.val ++ k.2.val

/-- The keys that a verified record contributes, in chain order. -/
def recordKeys (r : TlsAttestationRecord) : List PointXy :=
  r.certChainDer.filterMap (extractP256PubkeyXy K)

/-- The verified records. -/
def verifiedRecords (records : List TlsAttestationRecord) : List TlsAttestationRecord :=
  records.filter (·.p256Verified)

/-- The leaf key of a record, if it can be extracted. -/
def leafKey (r : TlsAttestationRecord) : Option PointXy :=
  r.certChainDer.head?.bind (extractP256PubkeyXy K)

variable {K}

@[simp] theorem PointXy.length_bytes (k : PointXy) : k.bytes.length = 64 := by
  rw [PointXy.bytes, List.length_append, k.1.property, k.2.property]

theorem PointXy.bytes_inj {k k' : PointXy} (h : k.bytes = k'.bytes) : k = k' := by
  have hlen : k.1.val.length = k'.1.val.length := by rw [k.1.property, k'.1.property]
  rcases List.append_inj h hlen with ⟨hx, hy⟩
  exact Prod.ext (Subtype.ext hx) (Subtype.ext hy)

/-- Keys are a self-delimiting encoding of themselves: they all have 64 bytes. -/
theorem selfDelimiting_pointBytes : SelfDelimiting (fun _ => True) PointXy.bytes :=
  .of_length 64 PointXy.length_bytes fun _ _ _ _ => PointXy.bytes_inj

theorem flatMap_certKeyBytes (chain : List Bytes) :
    chain.flatMap (certKeyBytes K)
      = (chain.filterMap (extractP256PubkeyXy K)).flatMap PointXy.bytes := by
  induction chain with
  | nil => rfl
  | cons der rest ih =>
      cases hkey : extractP256PubkeyXy K der with
      | none =>
          have hbytes : certKeyBytes K der = [] := by rw [certKeyBytes, hkey]
          rw [List.flatMap_cons, ih, hbytes, List.filterMap_cons_none hkey, List.nil_append]
      | some k =>
          have hbytes : certKeyBytes K der = PointXy.bytes k := by
            rw [certKeyBytes, hkey]
            rfl
          rw [List.flatMap_cons, ih, hbytes, List.filterMap_cons_some hkey, List.flatMap_cons]

theorem recordKeyBytes_of_verified {r : TlsAttestationRecord} (h : r.p256Verified = true) :
    recordKeyBytes K r = (recordKeys K r).flatMap PointXy.bytes := by
  rw [recordKeyBytes, h, recordKeys, ← flatMap_certKeyBytes]
  rfl

/-- **The hashed fields are the keys of the verified records**, byte by byte. -/
theorem attestationFields_eq {F : Type} (f : UInt8 → F) (records : List TlsAttestationRecord) :
    attestationFields K f records
      = (((verifiedRecords records).flatMap (recordKeys K)).flatMap PointXy.bytes).map f := by
  induction records with
  | nil => rfl
  | cons r records ih =>
      rw [attestationFields_cons, ih]
      cases hver : r.p256Verified with
      | false =>
          have hbytes : recordKeyBytes K r = [] := by simp [recordKeyBytes, hver]
          have hrecords : verifiedRecords (r :: records) = verifiedRecords records :=
            List.filter_cons_of_neg (by simp [hver])
          rw [hbytes, hrecords, List.map_nil, List.nil_append]
      | true =>
          have hbytes : recordKeyBytes K r = (recordKeys K r).flatMap PointXy.bytes :=
            recordKeyBytes_of_verified hver
          have hrecords : verifiedRecords (r :: records) = r :: verifiedRecords records :=
            List.filter_cons_of_pos hver
          rw [hbytes, hrecords, List.flatMap_cons, List.flatMap_append, List.map_append]

/-- A record with an extractable leaf key contributes that key first. -/
theorem recordKeys_of_leafKey {r : TlsAttestationRecord} {k : PointXy}
    (h : leafKey K r = some k) : ∃ ks, recordKeys K r = k :: ks := by
  unfold leafKey at h
  cases hchain : r.certChainDer with
  | nil =>
      rw [hchain] at h
      cases h
  | cons leafDer rest =>
      rw [hchain] at h
      have hkey : extractP256PubkeyXy K leafDer = some k := h
      exact ⟨rest.filterMap (extractP256PubkeyXy K), by
        rw [recordKeys, hchain, List.filterMap_cons_some hkey]⟩

/-! ## Is the server's key committed? -/

variable (K) in
/-- **Every verified record commits its server key**, so that the first 64 hashed fields are the
leaf key of the first verified record. -/
structure CommitsServerKeys (out : List TlsAttestationRecord) : Prop where
  /-- The leaf key of a verified record is extracted and comes first in what the record
  contributes. -/
  leaf : ∀ r ∈ out, r.p256Verified = true → ∃ k, leafKey K r = some k ∧
    (recordKeyBytes K r).take 64 = k.bytes
  /-- With a verified record the field list is not empty and starts with that record's leaf
  key. -/
  first : ∀ r rest, verifiedRecords out = r :: rest → ∃ k, leafKey K r = some k ∧
    ∀ {F : Type} (f : UInt8 → F), attestationFields K f out ≠ [] ∧
      (attestationFields K f out).take 64 = k.bytes.map f

variable (K) in
/-- The certificate's key is a 65-byte uncompressed SEC1 point in whole octets. -/
def HasUncompressedKey (certDer : Bytes) : Prop :=
  ∃ cert keyBytes, K.certificateFromDer certDer = some cert ∧
    cert.tbsCertificate.subjectPublicKeyInfo.subjectPublicKey.asBytes = some keyBytes ∧
    keyBytes.length = 65 ∧ keyBytes.head? = some 0x04

/-- On a certificate that `spki_is_p256` accepts, `extract_p256_pubkey_xy` looks further. -/
theorem extractP256PubkeyXy_isSome_iff {certDer : Bytes} {cert : Certificate}
    (hcert : K.certificateFromDer certDer = some cert) (hp256 : spkiIsP256 K cert = true) :
    (extractP256PubkeyXy K certDer).isSome = true ↔ HasUncompressedKey K certDer := by
  unfold extractP256PubkeyXy HasUncompressedKey
  cases hkey : cert.tbsCertificate.subjectPublicKeyInfo.subjectPublicKey.asBytes with
  | none => simp [hcert, hp256, hkey]
  | some keyBytes => simp [hcert, hp256, hkey, uncompressedPoint]

/-- From the leaf keys of the records to the head of the field list. -/
theorem commitsServerKeys_of_leafKeys {out : List TlsAttestationRecord}
    (h : ∀ r ∈ out, r.p256Verified = true → ∃ k, leafKey K r = some k) :
    CommitsServerKeys K out where
  leaf r hr hver := by
    rcases h r hr hver with ⟨k, hk⟩
    rcases recordKeys_of_leafKey hk with ⟨ks, hks⟩
    refine ⟨k, hk, ?_⟩
    rw [recordKeyBytes_of_verified hver, hks, List.flatMap_cons, List.take_left' k.length_bytes]
  first r rest hfirst := by
    have hmem : r ∈ out ∧ r.p256Verified = true :=
      List.mem_filter.mp (show r ∈ verifiedRecords out by simp [hfirst])
    rcases h r hmem.1 hmem.2 with ⟨k, hk⟩
    rcases recordKeys_of_leafKey hk with ⟨ks, hks⟩
    refine ⟨k, hk, ?_⟩
    intro F f
    have hlen : (k.bytes.map f).length = 64 := by rw [List.length_map, k.length_bytes]
    have hne : k.bytes.map f ≠ [] := List.ne_nil_of_length_pos (by omega)
    -- the field list is the leaf key, followed by everything else
    have hfields : attestationFields K f out
        = k.bytes.map f ++ ((ks ++ rest.flatMap (recordKeys K)).flatMap PointXy.bytes).map f := by
      rw [attestationFields_eq, hfirst, List.flatMap_cons, hks, List.cons_append,
        List.flatMap_cons, List.map_append]
    rw [hfields]
    exact ⟨List.append_ne_nil_of_left_ne_nil hne _, List.take_left' hlen⟩

/-- For a record that passes: its result has a leaf key exactly when the leaf's key is an
uncompressed point. -/
theorem leafKey_reverifiedAs_iff {t : Target} {r : TlsAttestationRecord}
    (hpass : passesReverification K t r = true) :
    (∃ k, leafKey K (reverifiedAs K r) = some k) ↔
      ∀ leafDer rest, r.certChainDer = leafDer :: rest → HasUncompressedKey K leafDer := by
  rcases leaf_of_passes hpass with ⟨leafDer, rest, leaf, hchain, hleaf, hp256⟩
  have hkey : leafKey K (reverifiedAs K r) = extractP256PubkeyXy K leafDer := by
    simp [leafKey, reverifiedAs, verified, hchain]
  rw [hkey, ← Option.isSome_iff_exists, extractP256PubkeyXy_isSome_iff hleaf hp256]
  constructor
  · intro hunc leafDer' rest' hchain'
    rw [hchain] at hchain'
    obtain ⟨rfl, -⟩ := List.cons.inj hchain'
    exact hunc
  · intro hunc
    exact hunc leafDer rest hchain

/-- **When re-verification commits every server key**: exactly when each record that passes has
a leaf whose key is an uncompressed point. -/
theorem commitsServerKeys_iff {t : Target} {records out : List TlsAttestationRecord}
    (h : reverifyAttestations K t records = .ok out) :
    CommitsServerKeys K out ↔
      ∀ r ∈ records, passesReverification K t r = true →
        ∀ leafDer rest, r.certChainDer = leafDer :: rest → HasUncompressedKey K leafDer := by
  have hall := reverifyAttestations_iff.mp h
  constructor
  · -- from the output to the input: each passing record has its verified result in `out`
    intro hcommits r hr hpass
    rcases exists_reverified hall hr with ⟨r', hr', hrr'⟩
    have heq := reverifyRecord_eq hrr'
    rw [if_pos hpass] at heq
    subst heq
    rcases hcommits.leaf _ hr' rfl with ⟨k, hk, -⟩
    exact (leafKey_reverifiedAs_iff hpass).mp ⟨k, hk⟩
  · -- from the input to the output: each verified result comes from a passing record
    intro hcond
    apply commitsServerKeys_of_leafKeys
    intro r' hr' hver
    rcases exists_record hall hr' with ⟨r, hr, hrr'⟩
    have heq := reverifyRecord_eq hrr'
    split at heq
    · next hpass =>
      subst heq
      exact (leafKey_reverifiedAs_iff hpass).mpr (hcond r hr hpass)
    · subst heq
      cases hver

theorem commitsServerKeys_leaf_cert :
    reverifyAttestations smallPki .host64 [verified [leafCert.der] "a.b" 0]
        = .ok [verified [leafCert.der] "a.b" 2019686400] ∧
      (CommitsServerKeys smallPki [verified [leafCert.der] "a.b" 2019686400] ↔
        ∀ r ∈ [verified [leafCert.der] "a.b" 0], passesReverification smallPki .host64 r = true →
          ∀ leafDer rest, r.certChainDer = leafDer :: rest →
            HasUncompressedKey smallPki leafDer) := by
  have h : reverifyAttestations smallPki .host64 [verified [leafCert.der] "a.b" 0]
      = .ok [verified [leafCert.der] "a.b" 2019686400] := by decide +kernel
  exact ⟨h, commitsServerKeys_iff h⟩

/-- A leaf with a compressed P-256 key is verified, and nothing is committed for it. -/
theorem compressed_key_not_committed :
    reverifyAttestations smallPki .host64 [verified [compressedCert.der] "a.b" 0]
        = .ok [verified [compressedCert.der] "a.b" 2019686400] ∧
      attestationFields smallPki id [verified [compressedCert.der] "a.b" 2019686400] = [] ∧
      ¬CommitsServerKeys smallPki [verified [compressedCert.der] "a.b" 2019686400] := by
  refine ⟨by decide +kernel, by decide +kernel, ?_⟩
  intro hcommits
  rcases hcommits.leaf _ (List.mem_singleton_self _) rfl with ⟨k, hk, -⟩
  have hnone : leafKey smallPki (verified [compressedCert.der] "a.b" 2019686400) = none := by
    decide +kernel
  rw [hnone] at hk
  cases hk

/-! ## What the field list determines -/

/-- Concatenations of non-empty lists are split by the lengths of the parts, even when these are
known only for the first list. -/
theorem eq_of_flatten_eq_of_length_prefix {α : Type} {xs ys : List (List α)}
    (hne : ∀ y ∈ ys, y ≠ []) (hlen : xs.map List.length <+: ys.map List.length)
    (h : xs.flatten = ys.flatten) : xs = ys := by
  induction xs generalizing ys with
  | nil =>
      cases ys with
      | nil => rfl
      | cons y ys =>
          have hnil : y ++ ys.flatten = [] := h.symm
          exact absurd (List.append_eq_nil_iff.mp hnil).1 (hne y (by simp))
  | cons x xs ih =>
      cases ys with
      | nil => simp at hlen
      | cons y ys =>
          obtain ⟨hhead, htail⟩ : x.length = y.length ∧
              xs.map List.length <+: ys.map List.length := by
            simpa [List.cons_prefix_cons] using hlen
          -- equal lengths put the boundary behind the first part in the same place
          rcases List.append_inj h hhead with ⟨rfl, hrest⟩
          rw [ih (fun z hz => hne z (by simp [hz])) htail hrest]

variable (K) in
/-- Every verified record has an extractable leaf key. -/
def LeafKeysExtractable (records : List TlsAttestationRecord) : Prop :=
  ∀ r ∈ verifiedRecords records, (leafKey K r).isSome = true

variable (K) in
/-- The keys of all verified records, record boundaries forgotten. -/
def keySequence (records : List TlsAttestationRecord) : List PointXy :=
  (verifiedRecords records).flatMap (recordKeys K)

variable (K) in
/-- The leaf keys of the verified records, in order. -/
def leafKeys (records : List TlsAttestationRecord) : List (Option PointXy) :=
  (verifiedRecords records).map (leafKey K)

variable (K) in
/-- How many keys each verified record contributes. -/
def keyCounts (records : List TlsAttestationRecord) : List Nat :=
  (verifiedRecords records).map fun r => (recordKeys K r).length

/-- **The field list determines the sequence of keys, and nothing more.** -/
theorem attestationFields_eq_iff {F : Type} {f : UInt8 → F} (hf : Function.Injective f)
    {records records' : List TlsAttestationRecord} :
    attestationFields K f records = attestationFields K f records' ↔
      keySequence K records = keySequence K records' := by
  rw [attestationFields_eq, attestationFields_eq, (List.map_injective_iff.mpr hf).eq_iff]
  constructor
  · intro h
    have hne : ∀ k : PointXy, True → k.bytes ≠ [] := by
      intro k _
      exact List.ne_nil_of_length_pos (by rw [k.length_bytes]; decide)
    exact selfDelimiting_pointBytes.concat_inj hne (fun _ _ => trivial) (fun _ _ => trivial) h
  · intro h
    exact congrArg (List.flatMap PointXy.bytes) h

/-- The first verified record's leaf key is at the head of the sequence. -/
theorem leafKeys_head? {records : List TlsAttestationRecord} (h : LeafKeysExtractable K records) :
    (leafKeys K records).head? = (keySequence K records).head?.map some := by
  unfold LeafKeysExtractable at h
  unfold keySequence leafKeys
  cases hver : verifiedRecords records with
  | nil => rfl
  | cons r rest =>
      rcases Option.isSome_iff_exists.mp (h r (by simp [hver])) with ⟨k, hk⟩
      rcases recordKeys_of_leafKey hk with ⟨ks, hks⟩
      simp [hk, hks]

/-- With the records' key counts the keys of each record are determined too. -/
theorem recordKeys_eq_of_counts {records records' : List TlsAttestationRecord}
    (h' : LeafKeysExtractable K records')
    (hcounts : keyCounts K records <+: keyCounts K records')
    (hseq : keySequence K records = keySequence K records') :
    (verifiedRecords records).map (recordKeys K)
      = (verifiedRecords records').map (recordKeys K) := by
  refine eq_of_flatten_eq_of_length_prefix ?_ ?_ ?_
  · intro ks hks
    rcases List.mem_map.mp hks with ⟨r, hr, rfl⟩
    rcases Option.isSome_iff_exists.mp (h' r hr) with ⟨k, hk⟩
    rcases recordKeys_of_leafKey hk with ⟨ks, hks⟩
    simp [hks]
  · simpa [keyCounts, List.map_map, Function.comp_def] using hcounts
  · simpa [keySequence, List.flatMap_def] using hseq

/-- The leaf key of a record is the first of its keys. -/
theorem leafKeys_eq_map_head? {records : List TlsAttestationRecord}
    (h : LeafKeysExtractable K records) :
    leafKeys K records = ((verifiedRecords records).map (recordKeys K)).map List.head? := by
  rw [leafKeys, List.map_map]
  apply List.map_congr_left
  intro r hr
  rcases Option.isSome_iff_exists.mp (h r hr) with ⟨k, hk⟩
  rcases recordKeys_of_leafKey hk with ⟨ks, hks⟩
  simp [hk, hks]

/-- **What the hashed fields bind.** Lists whose verified records have extractable leaf keys are
hashed alike exactly when their key sequences agree. Then the first verified records have the
same leaf key, and if each record's number of keys agrees too (as far as the first list goes),
there are equally many verified records, with the same leaf keys. -/
theorem attestation_binds_key_sequence {F : Type} {f : UInt8 → F} (hf : Function.Injective f)
    {records records' : List TlsAttestationRecord} (h : LeafKeysExtractable K records)
    (h' : LeafKeysExtractable K records') :
    (attestationFields K f records = attestationFields K f records' ↔
        keySequence K records = keySequence K records') ∧
      (attestationFields K f records = attestationFields K f records' →
        (leafKeys K records).head? = (leafKeys K records').head? ∧
        (keyCounts K records <+: keyCounts K records' →
          leafKeys K records = leafKeys K records')) := by
  have hiff : attestationFields K f records = attestationFields K f records' ↔
      keySequence K records = keySequence K records' := attestationFields_eq_iff hf
  refine ⟨hiff, fun hfields => ?_⟩
  have hseq := hiff.mp hfields
  refine ⟨?_, fun hcounts => ?_⟩
  · rw [leafKeys_head? h, leafKeys_head? h', hseq]
  · rw [leafKeys_eq_map_head? h, leafKeys_eq_map_head? h', recordKeys_eq_of_counts h' hcounts hseq]

/-- `u8_to_field` into the scalar field of BN254. -/
def bn254U8ToField (b : UInt8) :
    Fin 21888242871839275222246405745257275088548364400416034343698204186575808495617 :=
  ⟨b.toNat, Nat.lt_trans b.toNat_lt (by decide)⟩

theorem bn254U8ToField_injective : Function.Injective bn254U8ToField := by
  intro b c h
  exact UInt8.toNat_inj.mp (Fin.mk.inj h)

/-- One record whose chain is `leafCert`, `borrowedKeyCert`. -/
def oneRecord : List TlsAttestationRecord :=
  [verified [leafCert.der, borrowedKeyCert.der] "a.b" 2019686400]

/-- Two records, one for each of these certificates. -/
def twoRecords : List TlsAttestationRecord :=
  [verified [leafCert.der] "a.b" 2019686400, verified [borrowedKeyCert.der] "c.d" 2019686400]

theorem oneRecord_extractable : LeafKeysExtractable smallPki oneRecord := by
  unfold LeafKeysExtractable
  decide +kernel

theorem twoRecords_extractable : LeafKeysExtractable smallPki twoRecords := by
  unfold LeafKeysExtractable
  decide +kernel

theorem attestation_binds_key_sequence_regrouped :
    (attestationFields smallPki bn254U8ToField oneRecord
          = attestationFields smallPki bn254U8ToField twoRecords ↔
        keySequence smallPki oneRecord = keySequence smallPki twoRecords) ∧
      (attestationFields smallPki bn254U8ToField oneRecord
          = attestationFields smallPki bn254U8ToField twoRecords →
        (leafKeys smallPki oneRecord).head? = (leafKeys smallPki twoRecords).head? ∧
        (keyCounts smallPki oneRecord <+: keyCounts smallPki twoRecords →
          leafKeys smallPki oneRecord = leafKeys smallPki twoRecords)) :=
  attestation_binds_key_sequence bn254U8ToField_injective oneRecord_extractable
    twoRecords_extractable

/-- **Regrouping is invisible**: both lists come out of re-verification, their verified records
differ in number and in leaf keys, and they are hashed alike. -/
theorem regrouped_records_share_fields :
    reverifyAttestations smallPki .host64 oneRecord = .ok oneRecord ∧
      reverifyAttestations smallPki .host64 twoRecords = .ok twoRecords ∧
      LeafKeysExtractable smallPki oneRecord ∧ LeafKeysExtractable smallPki twoRecords ∧
      Function.Injective bn254U8ToField ∧
      attestationFields smallPki bn254U8ToField oneRecord
        = attestationFields smallPki bn254U8ToField twoRecords ∧
      (verifiedRecords oneRecord).length = 1 ∧ (verifiedRecords twoRecords).length = 2 ∧
      leafKeys smallPki oneRecord ≠ leafKeys smallPki twoRecords := by
  refine ⟨by decide +kernel, by decide +kernel, oneRecord_extractable, twoRecords_extractable,
    bn254U8ToField_injective, by decide +kernel, by decide +kernel, by decide +kernel,
    by decide +kernel⟩

end ProvenoOracle
