import ProvenoOracle.Tls.AnchorReader
import ProvenoOracle.Tls.Chain
import ProvenoOracle.Tls.ConcreteCrates

/-! # Sending or omitting the root

A TLS server may or may not send the root certificate at the end of its chain. When it does,
the last pairwise check runs against the root's certificate; when it does not, the same check
runs against the trust anchors. This file shows that nothing is lost by omitting the root
(`verifyP256Chain_omit_root`).

The argument is `Pki.Path.drop_top`, so two things remain: a certificate with an anchor's
SubjectPublicKeyInfo carries only anchor keys (`anchorKey_of_certKey`), and the checks of the
source accept every path once the trust anchors can be read (`checks_of_path`).
-/

set_option autoImplicit false

namespace ProvenoOracle

open Codec

/-! ## What the crates promise -/

/-- A SubjectPublicKeyInfo in DER: the key is whole octets, and the encoding has the size that
the `der` crate supports (`Length::MAX`). -/
structure SubjectPublicKeyInfo.WellFormed (spki : SubjectPublicKeyInfo) : Prop where
  octetAligned : spki.subjectPublicKey.unusedBits = 0
  small : (spkiContent spki).length < 2 ^ 28

/-- The documented behaviour of the DER crates that the root test relies on. -/
structure Crates.FaithfulDer (K : Crates) : Prop where
  /-- A trust anchor holds the content of a SubjectPublicKeyInfo. -/
  anchors : ∀ a ∈ K.tlsServerRoots, ∃ spki : SubjectPublicKeyInfo,
    spki.WellFormed ∧ a.subjectPublicKeyInfo = spkiContent spki
  /-- A parsed SubjectPublicKeyInfo re-encodes to the DER it was parsed from. -/
  reencodes : ∀ der cert, K.certificateFromDer der = some cert →
    K.spkiToDer cert.tbsCertificate.subjectPublicKeyInfo
      = some (tlv 0x30 (spkiContent cert.tbsCertificate.subjectPublicKeyInfo)) ∧
    (spkiContent cert.tbsCertificate.subjectPublicKeyInfo).length < 2 ^ 28
  /-- The two key algorithms' identifiers are decoded. -/
  oids : ∀ oid ∈ [ID_EC_PUBLIC_KEY, RSA_OID], K.oidFromDer (tlv 0x06 oid.octets) = some oid

variable {K : Crates} {t : Target}

/-! ## Reading a trust anchor -/

theorem tl_tlv {tag : UInt8} {c r : Bytes} (hsmall : (tlv tag c).length < 2 ^ 32) :
    tl t (tlv tag c ++ r) tag = .ok (some (c, r)) := by
  have hc : c.length < 256 ^ 4 := by
    simp only [tlv, List.length_cons, List.length_append] at hsmall
    omega
  exact tl_append (isTlv_tlv tag hc (by decide)) (Nat.lt_of_lt_of_le hsmall t.two_pow_ge) r

/-- `spki_alg_and_key` on the content of a SubjectPublicKeyInfo: the OID octets go through
`ObjectIdentifier::from_der` again, the key bytes come out as they are. -/
theorem spkiAlgAndKey_spkiContent {spki : SubjectPublicKeyInfo}
    (hsmall : (spkiContent spki).length < 2 ^ 28) :
    spkiAlgAndKey K t (spkiContent spki)
      = .ok ((K.oidFromDer (0x06 :: UInt8.ofNat spki.algorithm.oid.octets.length
          :: spki.algorithm.oid.octets)).map fun oid => (oid, spki.subjectPublicKey.rawBytes)) := by
  have hlens : (algorithmDer spki.algorithm).length + (tlv 0x03
      (UInt8.ofNat spki.subjectPublicKey.unusedBits :: spki.subjectPublicKey.rawBytes)).length
        < 2 ^ 28 := by
    rw [← List.length_append]
    exact hsmall
  have halg : tl t (spkiContent spki) 0x30 = .ok (some (_, _)) := tl_tlv (by
    rw [algorithmDer] at hlens
    omega)
  have hoid : tl t (tlv 0x06 spki.algorithm.oid.octets
      ++ (spki.algorithm.parameters.map fun p => tlv p.tag p.value).getD []) 0x06
        = .ok (some (_, _)) := tl_tlv (by
    simp only [algorithmDer, tlv, List.length_cons, List.length_append] at hlens ⊢
    omega)
  have hkey : tl t (tlv 0x03 (UInt8.ofNat spki.subjectPublicKey.unusedBits
      :: spki.subjectPublicKey.rawBytes) ++ []) 0x03 = .ok (some (_, [])) := tl_tlv (by omega)
  rw [List.append_nil] at hkey
  -- the first content octet of the BIT STRING counts unused bits; the key is what follows it
  simp only [spkiAlgAndKey, halg, hoid, hkey, Run.ok_bind, Run.pure_eq, List.isEmpty_cons,
    Bool.false_eq_true, if_false, sliceFrom_cons_one]
  cases K.oidFromDer (0x06 :: UInt8.ofNat spki.algorithm.oid.octets.length
    :: spki.algorithm.oid.octets) <;> rfl

theorem anchorsReadable_of_faithfulDer (hK : K.FaithfulDer) : AnchorsReadable K t := by
  intro a ha
  rcases hK.anchors a ha with ⟨spki, hspki, heq⟩
  rw [heq]
  exact ⟨_, spkiAlgAndKey_spkiContent hspki.small⟩

/-- `der_inner` undoes the re-encoding of a parsed SubjectPublicKeyInfo. -/
theorem derInner_reencoded (hK : K.FaithfulDer) {der : Bytes} {cert : Certificate}
    (h : K.certificateFromDer der = some cert) :
    derInner t (tlv 0x30 (spkiContent cert.tbsCertificate.subjectPublicKeyInfo)) 0x30
      = .ok (some (spkiContent cert.tbsCertificate.subjectPublicKeyInfo)) := by
  have hsmall := (hK.reencodes der cert h).2
  have hspki : IsTlv 4 0x30 (spkiContent cert.tbsCertificate.subjectPublicKeyInfo)
      (tlv 0x30 (spkiContent cert.tbsCertificate.subjectPublicKeyInfo)) :=
    isTlv_tlv 0x30 (by omega) (by decide)
  have hsize := tlv_length_le 0x30 (c := spkiContent cert.tbsCertificate.subjectPublicKeyInfo)
    (by omega)
  have hinner := derInner_append (t := t) hspki (by omega) []
  rwa [List.append_nil] at hinner

/-- The SubjectPublicKeyInfo comparison returns on every certificate that parses. -/
theorem spkiIsAnchor_returns (hK : K.FaithfulDer) {der : Bytes} {cert : Certificate}
    (h : K.certificateFromDer der = some cert) : ∃ b, spkiIsAnchor K t cert = .ok b := by
  rw [spkiIsAnchor, (hK.reencodes der cert h).1]
  dsimp only
  rw [derInner_reencoded hK h]
  exact ⟨_, rfl⟩

/-! ## The root's key is an anchor key -/

/-- The two key algorithms of a supported certificate key. -/
theorem certKey_algorithm {cert : Certificate} {key : PublicKey} (h : certKey K cert = some key) :
    ∃ keyBytes, cert.tbsCertificate.subjectPublicKeyInfo.subjectPublicKey.rawBytes = keyBytes ∧
      ((cert.tbsCertificate.subjectPublicKeyInfo.algorithm.oid = ID_EC_PUBLIC_KEY ∧
          (key = .p256 keyBytes ∨ key = .p384 keyBytes)) ∨
        (cert.tbsCertificate.subjectPublicKeyInfo.algorithm.oid = RSA_OID ∧
          key = .rsa keyBytes)) := by
  unfold certKey at h
  dsimp only at h
  split at h
  · cases h
  · next keyBytes hbytes =>
    have hraw : cert.tbsCertificate.subjectPublicKeyInfo.subjectPublicKey.rawBytes = keyBytes := by
      unfold BitString.asBytes at hbytes
      split_ifs at hbytes
      exact Option.some.inj hbytes
    refine ⟨keyBytes, hraw, ?_⟩
    -- one case for each kind of key: P-256, P-384, RSA
    split_ifs at h with hec hp256 hp384 hrsa
    · exact Or.inl ⟨hec, Or.inl (Option.some.inj h).symm⟩
    · exact Or.inl ⟨hec, Or.inr (Option.some.inj h).symm⟩
    · exact Or.inr ⟨hrsa, (Option.some.inj h).symm⟩

/-- **The two readings of a key agree.** A certificate whose SubjectPublicKeyInfo is that of a
trust anchor carries one of the anchor's keys, whichever algorithm and curve it names. -/
theorem anchorKey_of_certKey (hK : K.FaithfulDer) {cert : Certificate} {key : PublicKey}
    {a : TrustAnchor} (ha : a ∈ K.tlsServerRoots)
    (hspki : a.subjectPublicKeyInfo = spkiContent cert.tbsCertificate.subjectPublicKeyInfo)
    (hkey : certKey K cert = some key) : AnchorKey K t a key := by
  have hsmall : (spkiContent cert.tbsCertificate.subjectPublicKeyInfo).length < 2 ^ 28 := by
    rcases hK.anchors a ha with ⟨spki, hwf, heq⟩
    rw [← hspki, heq]
    exact hwf.small
  rcases certKey_algorithm hkey with ⟨keyBytes, hbytes, halg⟩
  refine ⟨cert.tbsCertificate.subjectPublicKeyInfo.algorithm.oid, keyBytes, ?_, halg⟩
  rw [hspki, spkiAlgAndKey_spkiContent hsmall, hbytes]
  rcases halg with ⟨hec, -⟩ | ⟨hrsa, -⟩
  · rw [hec]
    exact congrArg (fun o => Except.ok (o.map fun oid => (oid, keyBytes)))
      (hK.oids ID_EC_PUBLIC_KEY (by simp))
  · rw [hrsa]
    exact congrArg (fun o => Except.ok (o.map fun oid => (oid, keyBytes)))
      (hK.oids RSA_OID (by simp))

/-- The concrete crates keep these promises on small keys. -/
theorem concreteCrates_faithfulDer {known roots : List P256Cert}
    {issued : List (P256Cert × P256Cert)}
    (hknown : ∀ c ∈ known, (spkiContent c.spki).length < 2 ^ 28)
    (hroots : ∀ c ∈ roots, (spkiContent c.spki).length < 2 ^ 28) :
    (concreteCrates known issued roots).FaithfulDer where
  anchors a ha := by
    rcases List.mem_map.mp ha with ⟨c, hc, rfl⟩
    exact ⟨c.spki, ⟨rfl, hroots c hc⟩, rfl⟩
  reencodes der cert h := by
    rcases concreteCrates_parse h with ⟨c, hc, -, rfl⟩
    exact ⟨rfl, hknown c hc⟩
  oids oid hoid := by
    have hdecode : ∀ oid ∈ [ID_EC_PUBLIC_KEY, RSA_OID],
        concreteOidFromDer (tlv 0x06 oid.octets) = some oid := by decide +kernel
    exact hdecode oid hoid

/-! ## Omitting the root -/

theorem parseChain_append_singleton {ders : List Bytes} {r : Bytes}
    {certs : List (Bytes × Certificate)} (h : parseChain K (ders ++ [r]) = some certs) :
    ∃ below root, parseChain K ders = some below ∧ K.certificateFromDer r = some root ∧
      certs = below ++ [(r, root)] := by
  induction ders generalizing certs with
  | nil =>
      rcases parseChain_cons.mp h with ⟨root, above, hroot, habove, rfl⟩
      cases habove
      exact ⟨[], root, rfl, hroot, rfl⟩
  | cons der rest ih =>
      rcases parseChain_cons.mp h with ⟨cert, above, hcert, habove, rfl⟩
      rcases ih habove with ⟨below, root, hbelow, hroot, rfl⟩
      exact ⟨(der, cert) :: below, root, parseChain_cons.mpr ⟨cert, below, hcert, hbelow, rfl⟩,
        hroot, rfl⟩

/-- **Omitting the root loses nothing**: a chain that is accepted with a root at its end is
accepted without it. -/
theorem verifyP256Chain_omit_root (hK : K.FaithfulDer) {chain : List Bytes} {r : Bytes}
    {root : Certificate} {a : TrustAnchor} {hostname : String} (hne : chain ≠ [])
    (hr : K.certificateFromDer r = some root) (ha : a ∈ K.tlsServerRoots)
    (hspki : a.subjectPublicKeyInfo = spkiContent root.tbsCertificate.subjectPublicKeyInfo)
    (h : verifyP256Chain K t (chain ++ [r]) hostname = .ok true) :
    verifyP256Chain K t chain hostname = .ok true := by
  rcases verifyP256Chain_iff.mp h with ⟨leaf, above, hparse, hp256, hpairs, hroot, hhost⟩
  rcases parseChain_append_singleton hparse with ⟨below, root', hbelow, hroot', hcerts⟩
  obtain rfl : root = root' := Option.some.inj (hr.symm.trans hroot')
  have hfst := parseChain_map_fst hbelow
  cases below with
  | nil => exact absurd hfst.symm hne
  | cons leaf' rest =>
      obtain ⟨rfl, rfl⟩ : leaf = leaf' ∧ above = rest ++ [(r, root)] := by simpa using hcerts
      -- the path without its top
      have hpath : (chainPki K t).Path (leaf :: rest) := by
        apply Pki.Path.drop_top (by simp) (path_of_checks hpairs hroot)
        intro key hkey
        exact ⟨a, ha, anchorKey_of_certKey hK ha hspki hkey⟩
      have hreturns : ∀ c ∈ leaf :: rest, ∃ b, spkiIsAnchor K t c.2 = .ok b := by
        intro c hc
        exact spkiIsAnchor_returns hK (parseChain_mem hbelow c hc)
      obtain ⟨hpairs', hroot'⟩ := checks_of_path (anchorsReadable_of_faithfulDer hK) hreturns hpath
      exact verifyP256Chain_iff.mpr ⟨leaf, rest, hbelow, hp256, hpairs', hroot', hhost⟩

theorem verifyP256Chain_omit_root_leaf :
    verifyP256Chain smallPki .host64 ([leafCert.der] ++ [rootCert.der]) "a.b" = .ok true ∧
      verifyP256Chain smallPki .host64 [leafCert.der] "a.b" = .ok true := by
  have hK : smallPki.FaithfulDer :=
    concreteCrates_faithfulDer (by decide +kernel) (by decide +kernel)
  have haccept : verifyP256Chain smallPki .host64 ([leafCert.der] ++ [rootCert.der]) "a.b"
      = .ok true := by decide +kernel
  have hroot : smallPki.certificateFromDer rootCert.der = some rootCert.parsed := by
    decide +kernel
  have hanchor : ⟨spkiContent rootCert.spki⟩ ∈ smallPki.tlsServerRoots := List.mem_singleton_self _
  exact ⟨haccept, verifyP256Chain_omit_root hK (by simp) hroot hanchor rfl haccept⟩

end ProvenoOracle
