import ProvenoOracle.Tls.ConcreteCrates

/-! # The signed bytes are the parsed bytes

The verifier reads a certificate twice: `x509_cert` parses it into fields, and the hand-written
`extract_tbs_der` cuts out the bytes that the signature covers. This file shows that the second
reader finds exactly the first element of the outer SEQUENCE, whatever the widths of the two
length fields, and that everything it returns is such an element; so for a strict parser the two
readers look at the same bytes.
-/

set_option autoImplicit false

namespace ProvenoOracle

open Codec

/-- **A strict DER parser**: it consumes its whole input, and the first element of the outer
SEQUENCE is the TBSCertificate, which `decodeTbs` decodes. -/
def Crates.StrictDer (K : Crates) (decodeTbs : Bytes → Option TbsCertificate) : Prop :=
  ∀ der cert, K.certificateFromDer der = some cert →
    ∃ tbs rest, der = tlv 0x30 (tlv 0x30 tbs ++ rest) ∧
      (tlv 0x30 tbs ++ rest).length < 2 ^ 32 ∧
      decodeTbs (tlv 0x30 tbs) = some cert.tbsCertificate

variable {K : Crates} {t : Target}

/-- The first element of an encoded SEQUENCE is found, whatever follows the outer TLV. -/
theorem extractTbsDer_tlv (ht : 34 ≤ t.bits) {tbs rest : Bytes}
    (hsize : (tlv 0x30 tbs ++ rest).length < 2 ^ 32) (junk : Bytes) :
    extractTbsDer t (tlv 0x30 (tlv 0x30 tbs ++ rest) ++ junk) = .ok (some (tlv 0x30 tbs)) := by
  have htbs : tbs.length < 256 ^ 4 := by
    simp only [tlv, List.length_cons, List.length_append] at hsize
    omega
  have houter : (tlv 0x30 tbs ++ rest).length < 256 ^ 4 := by omega
  rw [extractTbsDer_wide ht, tbsField_append (isTlv_tlv 0x30 htbs (by decide))
    (isTlv_tlv 0x30 houter (by decide))]

/-- What is returned is a whole SEQUENCE at the front of the outer content. -/
theorem extractTbsDer_slice (ht : 34 ≤ t.bits) {der s : Bytes}
    (h : extractTbsDer t der = .ok (some s)) :
    ∃ header content rest junk, DefiniteLength 4 header (s ++ rest).length ∧
      der = 0x30 :: (header ++ (s ++ rest) ++ junk) ∧ IsTlv 4 0x30 content s := by
  rw [extractTbsDer_wide ht] at h
  obtain ⟨content, rest, outer, junk, hs, ⟨header, hheader, rfl⟩, rfl⟩ :=
    tbsField_some (Except.ok.inj h)
  exact ⟨header, content, rest, junk, hheader, rfl, hs⟩

/-- **The bytes whose signature is checked are the bytes that were parsed.** `extract_tbs_der`
returns the first element of an encoded SEQUENCE; it returns nothing but such elements; and for
a certificate that a strict parser accepts, the signature is checked over the very bytes that
the TBSCertificate was decoded from. -/
theorem signed_bytes_are_parsed_bytes {decodeTbs : Bytes → Option TbsCertificate}
    (ht : 34 ≤ t.bits) (hK : K.StrictDer decodeTbs) :
    (∀ tbs rest junk : Bytes, (tlv 0x30 tbs ++ rest).length < 2 ^ 32 →
        extractTbsDer t (tlv 0x30 (tlv 0x30 tbs ++ rest) ++ junk) = .ok (some (tlv 0x30 tbs))) ∧
      (∀ der s, extractTbsDer t der = .ok (some s) →
        ∃ header content rest junk, DefiniteLength 4 header (s ++ rest).length ∧
          der = 0x30 :: (header ++ (s ++ rest) ++ junk) ∧ IsTlv 4 0x30 content s) ∧
      ∀ der cert, K.certificateFromDer der = some cert →
        ∃ s, extractTbsDer t der = .ok (some s) ∧ decodeTbs s = some cert.tbsCertificate ∧
          ∀ key, SignedUnder K t der cert key ↔
            ∃ sigBytes, cert.signature.asBytes = some sigBytes ∧
              key.verifies K cert.signatureAlgorithm.oid s sigBytes = true := by
  refine ⟨?_, ?_, ?_⟩
  · intro tbs rest junk hsize
    exact extractTbsDer_tlv ht hsize junk
  · intro der s h
    exact extractTbsDer_slice ht h
  · intro der cert hcert
    rcases hK der cert hcert with ⟨tbs, rest, rfl, hsize, hdecode⟩
    -- the strict parser leaves no bytes behind the outer SEQUENCE
    have hextract := extractTbsDer_tlv ht hsize []
    rw [List.append_nil] at hextract
    refine ⟨tlv 0x30 tbs, hextract, hdecode, ?_⟩
    intro key
    constructor
    · rintro ⟨tbsDer, sigBytes, htbs, hsig, hverifies⟩
      rw [hextract] at htbs
      obtain rfl := Option.some.inj (Except.ok.inj htbs)
      exact ⟨sigBytes, hsig, hverifies⟩
    · rintro ⟨sigBytes, hsig, hverifies⟩
      exact ⟨tlv 0x30 tbs, sigBytes, hextract, hsig, hverifies⟩

/-- The TBSCertificate decoder of the concrete crates. -/
def concreteDecodeTbs (known : List P256Cert) (tbsDer : Bytes) : Option TbsCertificate :=
  (known.find? fun c => c.tbsDer = tbsDer).map fun c => c.parsed.tbsCertificate

theorem concreteCrates_strictDer {known roots : List P256Cert}
    {issued : List (P256Cert × P256Cert)}
    (hsize : ∀ c ∈ known, (c.tbsDer ++ c.tailDer).length < 2 ^ 32)
    (hdecode : ∀ c ∈ known, concreteDecodeTbs known c.tbsDer = some c.parsed.tbsCertificate) :
    (concreteCrates known issued roots).StrictDer (concreteDecodeTbs known) := by
  intro der cert h
  rcases concreteCrates_parse h with ⟨c, hc, rfl, rfl⟩
  exact ⟨c.tbsContent, c.tailDer, rfl, hsize c hc, hdecode c hc⟩

theorem signed_bytes_are_parsed_bytes_smallPki :
    (∀ tbs rest junk : Bytes, (tlv 0x30 tbs ++ rest).length < 2 ^ 32 →
        extractTbsDer .host64 (tlv 0x30 (tlv 0x30 tbs ++ rest) ++ junk)
          = .ok (some (tlv 0x30 tbs))) ∧
      (∀ der s, extractTbsDer .host64 der = .ok (some s) →
        ∃ header content rest junk, DefiniteLength 4 header (s ++ rest).length ∧
          der = 0x30 :: (header ++ (s ++ rest) ++ junk) ∧ IsTlv 4 0x30 content s) ∧
      ∀ der cert, smallPki.certificateFromDer der = some cert →
        ∃ s, extractTbsDer .host64 der = .ok (some s) ∧
          concreteDecodeTbs [rootCert, leafCert, mintedCert, borrowedKeyCert, compressedCert] s
            = some cert.tbsCertificate ∧
          ∀ key, SignedUnder smallPki .host64 der cert key ↔
            ∃ sigBytes, cert.signature.asBytes = some sigBytes ∧
              key.verifies smallPki cert.signatureAlgorithm.oid s sigBytes = true :=
  signed_bytes_are_parsed_bytes (by decide)
    (concreteCrates_strictDer (by decide +kernel) (by decide +kernel))

end ProvenoOracle
