import ProvenoOracle.Tls.RootOmission

/-! # The chain of trust

What an accepted chain means in terms of `Pki.TrustedKey`, the keys that the trust anchors
vouch for. A pinned certificate carries only anchor keys (`anchorKey_of_pinned`), so the trust of
the anchors comes down the whole chain: every key in it is trusted, and the leaf is signed under
a trusted key unless the chain is a single pinned certificate (`verifyP256Chain_trusted`).
-/

set_option autoImplicit false

namespace ProvenoOracle

open Codec

variable {K : Crates} {t : Target}

/-- The anchor test compares the content of the certificate's SubjectPublicKeyInfo. -/
theorem spkiIsAnchor_true (hK : K.FaithfulDer) {der : Bytes} {cert : Certificate}
    (hcert : K.certificateFromDer der = some cert) (h : spkiIsAnchor K t cert = .ok true) :
    ∃ a ∈ K.tlsServerRoots,
      a.subjectPublicKeyInfo = spkiContent cert.tbsCertificate.subjectPublicKeyInfo := by
  have hinner := derInner_reencoded (t := t) hK hcert
  rw [spkiIsAnchor, (hK.reencodes der cert hcert).1] at h
  dsimp only at h
  rw [hinner] at h
  have hany := Except.ok.inj h
  simpa using hany

/-- **A pinned certificate carries only anchor keys.** -/
theorem anchorKey_of_pinned (hK : K.FaithfulDer) {c : Bytes × Certificate} {key : PublicKey}
    (hcert : K.certificateFromDer c.1 = some c.2) (hpin : (chainPki K t).pinned c)
    (hholds : (chainPki K t).holds c key) : (chainPki K t).anchor key := by
  rcases spkiIsAnchor_true hK hcert hpin with ⟨a, ha, hspki⟩
  exact ⟨a, ha, anchorKey_of_certKey hK ha hspki hholds⟩

/-- **What an accepted chain vouches for**: the keys of all its certificates are trusted, and the
leaf's TBS bytes verify under a trusted key unless the chain is a single pinned certificate. -/
theorem verifyP256Chain_trusted (hK : K.FaithfulDer) {chain : List Bytes} {hostname : String}
    (h : verifyP256Chain K t chain hostname = .ok true) :
    ∃ leaf above, parseChain K chain = some (leaf :: above) ∧
      (∀ c ∈ leaf :: above, ∀ key, certKey K c.2 = some key → (chainPki K t).TrustedKey key) ∧
      ((∃ key, (chainPki K t).TrustedKey key ∧ SignedUnder K t leaf.1 leaf.2 key) ∨
        (above = [] ∧ spkiIsAnchor K t leaf.2 = .ok true)) := by
  obtain ⟨leaf, above, hparse, -, hpairs, hroot, -⟩ := verifyP256Chain_iff.mp h
  have hpath : (chainPki K t).Path (leaf :: above) := path_of_checks hpairs hroot
  have hpin : ∀ c ∈ leaf :: above, ∀ key, (chainPki K t).pinned c →
      (chainPki K t).holds c key → (chainPki K t).anchor key := by
    intro c hc key hpinned hholds
    exact anchorKey_of_pinned hK (parseChain_mem hparse c hc) hpinned hholds
  exact ⟨leaf, above, hparse, hpath.trustedKey hpin, hpath.leaf_signed hpin⟩

end ProvenoOracle
