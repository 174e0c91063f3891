import ProvenoOracle.Tls.Chain
import ProvenoOracle.Tls.SanSearch

/-! # Chain verification always returns

On a target whose `usize` is wider than 33 bits, no input makes the verifier panic: the header
sums of the DER readers are exact (`derReadTlv_wide`, `extractTbsDer_wide`), and so the search
for the hostname returns (`sanContainsHostname_returns`). The one thing left to the build is that
the compiled-in trust anchors can be read (`AnchorsReadable`).
-/

set_option autoImplicit false

namespace ProvenoOracle

variable {K : Crates} {t : Target} (ht : 34 ≤ t.bits)

include ht

theorem hostnameMatchesCert_returns (hostname : String) (cert : Certificate) :
    Run.Returns (hostnameMatchesCert t hostname cert) := by
  unfold hostnameMatchesCert
  split
  · exact Run.returns_ok _
  · split
    · exact Run.returns_ok _
    · next ext hext => exact sanContainsHostname_returns ht ext.extnValue hostname

/-! ## The signature checks -/

theorem verifyCertSig_returns (childDer : Bytes) (child issuer : Certificate) :
    Run.Returns (verifyCertSig K t childDer child issuer) := by
  rw [verifyCertSig, extractTbsDer_wide ht]
  dsimp only [Run.ok_bind]
  split
  · exact Run.returns_ok _
  · split
    · exact Run.returns_ok _
    · -- the dispatch on the issuer's key algorithm, then on the curve
      split
      · split
        · exact Run.returns_ok _
        · split
          · exact Run.returns_ok _
          · split <;> exact Run.returns_ok _
      · split <;> exact Run.returns_ok _

theorem verifyPairs_returns : ∀ certs : List (Bytes × Certificate),
    Run.Returns (verifyPairs K t certs)
  | [] => Run.returns_ok _
  | [_] => Run.returns_ok _
  | child :: issuer :: rest => by
      rw [verifyPairs]
      apply Run.Returns.bind (verifyCertSig_returns ht _ _ _)
      intro b
      split
      · exact Run.returns_ok _
      · exact verifyPairs_returns (issuer :: rest)

theorem spkiIsAnchor_returns_wide (cert : Certificate) :
    Run.Returns (spkiIsAnchor K t cert) := by
  unfold spkiIsAnchor
  split
  · exact Run.returns_ok _
  · apply Run.Returns.bind (derInner_returns ht _ _)
    intro o
    cases o with
    | none => exact Run.returns_ok _
    | some inner => exact Run.returns_ok _

omit ht in
theorem someAnchorVerifies_returns {tbsDer sigBytes : Bytes} {sigAlg : ObjectIdentifier}
    {anchors : List TrustAnchor}
    (hread : ∀ a ∈ anchors, ∃ v, spkiAlgAndKey K t a.subjectPublicKeyInfo = .ok v) :
    Run.Returns (someAnchorVerifies K t tbsDer sigBytes sigAlg anchors) := by
  induction anchors with
  | nil => exact Run.returns_ok _
  | cons a rest ih =>
      apply Run.Returns.bind (anchorVerifies_returns (hread a (by simp)))
      intro b
      split
      · exact Run.returns_ok _
      · exact ih fun a ha => hread a (by simp [ha])

theorem isSignedByMozillaRoot_returns (hread : AnchorsReadable K t) (der : Bytes)
    (cert : Certificate) : Run.Returns (isSignedByMozillaRoot K t der cert) := by
  apply Run.Returns.bind (spkiIsAnchor_returns_wide ht cert)
  intro b
  split
  · exact Run.returns_ok _
  · rw [extractTbsDer_wide ht]
    dsimp only [Run.ok_bind]
    split
    · exact Run.returns_ok _
    · split
      · exact Run.returns_ok _
      · exact someAnchorVerifies_returns hread

/-- **`verify_p256_chain` always returns.** -/
theorem verifyP256Chain_returns (hread : AnchorsReadable K t) (chain : List Bytes)
    (hostname : String) : Run.Returns (verifyP256Chain K t chain hostname) := by
  rcases hparse : parseChain K chain with - | (- | ⟨leaf, above⟩)
  · exact ⟨false, verifyP256Chain_unparsed hparse⟩
  · have hfst := parseChain_map_fst hparse
    obtain rfl : chain = [] := by simpa using hfst.symm
    exact Run.returns_ok _
  · rw [verifyP256Chain_parsed hparse]
    split
    · apply Run.Returns.bind (verifyPairs_returns ht _)
      intro b
      split
      · apply Run.Returns.bind (isSignedByMozillaRoot_returns ht hread _ _)
        intro b
        split
        · exact hostnameMatchesCert_returns ht hostname leaf.2
        · exact Run.returns_ok _
      · exact Run.returns_ok _
    · exact Run.returns_ok _

end ProvenoOracle
