import ProvenoOracle.Pki.Path
import ProvenoOracle.Tls.Hostname
import ProvenoOracle.Tls.Signature

/-! # Chain verification

`verify_p256_chain` and the certification path behind it. `verifyP256Chain_iff` splits an
acceptance into the checks of the source; `verifyP256Chain_path` reads the two signature
checks as a path of the public-key infrastructure `chainPki`, in which a certificate holds the
key of its SubjectPublicKeyInfo, is signed under the keys that verify its own TBS bytes, and is
pinned when its SubjectPublicKeyInfo content is a trust anchor's.
-/

set_option autoImplicit false

namespace ProvenoOracle

variable (K : Crates) (t : Target)

/-! ## Definitions -/

/-- `spki_is_p256`: the SubjectPublicKeyInfo declares a P-256 public key. -/
def spkiIsP256 (cert : Certificate) : Bool :=
  let spki := cert.tbsCertificate.subjectPublicKeyInfo
  if spki.algorithm.oid ≠ ID_EC_PUBLIC_KEY then false
  else
    match spki.algorithm.parameters with
    | some params => K.decodeAsOid params = some SECP256R1
    | none => false

/-- Parse every certificate of the chain; one failure fails the chain. The parsed certificates
are kept with the DER they came from. -/
def parseChain : List Bytes → Option (List (Bytes × Certificate))
  | [] => some []
  | der :: rest => do
      let cert ← K.certificateFromDer der
      let certs ← parseChain rest
      return (der, cert) :: certs

/-- The pairwise loop: each certificate's signature against the next one's key. -/
def verifyPairs : List (Bytes × Certificate) → Run Bool
  | child :: issuer :: rest => do
      if !(← verifyCertSig K t child.1 child.2 issuer.2) then return false
      verifyPairs (issuer :: rest)
  | _ => pure true

/-- `certs[certs.len() - 1]`, for the chain `leaf :: above`. -/
def topmost (leaf : Bytes × Certificate) : List (Bytes × Certificate) → Bytes × Certificate
  | [] => leaf
  | issuer :: rest => topmost issuer rest

/-- `verify_p256_chain`: verify a DER-encoded P-256 certificate chain, leaf first, against the
trust anchors, and that the leaf covers `hostname`. -/
def verifyP256Chain (certChainDer : List Bytes) (hostname : String) : Run Bool := do
  if certChainDer.isEmpty then return false
  match parseChain K certChainDer with
  | none => return false
  | some [] => return false
  | some (leaf :: above) =>
      if !spkiIsP256 K leaf.2 then return false
      if !(← verifyPairs K t (leaf :: above)) then return false
      let last := topmost leaf above
      if !(← isSignedByMozillaRoot K t last.1 last.2) then return false
      hostnameMatchesCert t hostname leaf.2

/-- The public-key infrastructure of the parsed certificates. -/
def chainPki : Pki (Bytes × Certificate) PublicKey where
  holds c key := certKey K c.2 = some key
  signed c key := SignedUnder K t c.1 c.2 key
  anchor key := ∃ a ∈ K.tlsServerRoots, AnchorKey K t a key
  pinned c := spkiIsAnchor K t c.2 = .ok true

/-! ## The checks of an acceptance -/

variable {K t}

theorem parseChain_cons {der : Bytes} {rest : List Bytes} {certs : List (Bytes × Certificate)} :
    parseChain K (der :: rest) = some certs ↔
      ∃ cert above, K.certificateFromDer der = some cert ∧ parseChain K rest = some above ∧
        certs = (der, cert) :: above := by
  simp only [parseChain, Option.bind_eq_bind, Option.bind_eq_some_iff, Option.pure_def,
    Option.some.injEq]
  constructor
  · rintro ⟨cert, hcert, above, habove, rfl⟩
    exact ⟨cert, above, hcert, habove, rfl⟩
  · rintro ⟨cert, above, hcert, habove, rfl⟩
    exact ⟨cert, hcert, above, habove, rfl⟩

/-- Parsing keeps the DER encodings in place. -/
theorem parseChain_map_fst {chain : List Bytes} {certs : List (Bytes × Certificate)}
    (h : parseChain K chain = some certs) : certs.map Prod.fst = chain := by
  induction chain generalizing certs with
  | nil => cases h; rfl
  | cons der rest ih =>
      rcases parseChain_cons.mp h with ⟨cert, above, -, habove, rfl⟩
      rw [List.map_cons, ih habove]

/-- Every parsed certificate is the parse of its DER encoding. -/
theorem parseChain_mem {chain : List Bytes} {certs : List (Bytes × Certificate)}
    (h : parseChain K chain = some certs) :
    ∀ c ∈ certs, K.certificateFromDer c.1 = some c.2 := by
  induction chain generalizing certs with
  | nil => cases h; simp
  | cons der rest ih =>
      rcases parseChain_cons.mp h with ⟨cert, above, hcert, habove, rfl⟩
      intro c hc
      rcases List.mem_cons.mp hc with rfl | hc
      · exact hcert
      · exact ih habove c hc

theorem verifyPairs_cons_cons_iff {child issuer : Bytes × Certificate}
    {rest : List (Bytes × Certificate)} :
    verifyPairs K t (child :: issuer :: rest) = .ok true ↔
      verifyCertSig K t child.1 child.2 issuer.2 = .ok true ∧
        verifyPairs K t (issuer :: rest) = .ok true := by
  rw [verifyPairs]
  cases verifyCertSig K t child.1 child.2 issuer.2 with
  | error p => simp
  | ok b => cases b <;> simp

/-- A chain with a certificate that does not parse is rejected. -/
theorem verifyP256Chain_unparsed {chain : List Bytes} {hostname : String}
    (h : parseChain K chain = none) : verifyP256Chain K t chain hostname = .ok false := by
  cases chain with
  | nil => rfl
  | cons der rest => simp [verifyP256Chain, h]

/-- The verdict on a parsed chain: the four checks in the order of the source. -/
theorem verifyP256Chain_parsed {chain : List Bytes} {hostname : String}
    {leaf : Bytes × Certificate} {above : List (Bytes × Certificate)}
    (h : parseChain K chain = some (leaf :: above)) :
    verifyP256Chain K t chain hostname =
      if spkiIsP256 K leaf.2 then do
        if ← verifyPairs K t (leaf :: above) then
          if ← isSignedByMozillaRoot K t (topmost leaf above).1 (topmost leaf above).2 then
            hostnameMatchesCert t hostname leaf.2
          else return false
        else return false
      else .ok false := by
  cases chain with
  | nil => cases h
  | cons der rest =>
      simp only [verifyP256Chain, List.isEmpty_cons, h, Bool.false_eq_true, if_false]
      cases spkiIsP256 K leaf.2 with
      | false => rfl
      | true =>
          cases verifyPairs K t (leaf :: above) with
          | error p => rfl
          | ok b =>
              cases b with
              | false => rfl
              | true =>
                  cases isSignedByMozillaRoot K t (topmost leaf above).1 (topmost leaf above).2 with
                  | error p => rfl
                  | ok b => cases b <;> rfl

/-- **An acceptance, check by check.** -/
theorem verifyP256Chain_iff {chain : List Bytes} {hostname : String} :
    verifyP256Chain K t chain hostname = .ok true ↔
      ∃ leaf above, parseChain K chain = some (leaf :: above) ∧
        spkiIsP256 K leaf.2 = true ∧
        verifyPairs K t (leaf :: above) = .ok true ∧
        isSignedByMozillaRoot K t (topmost leaf above).1 (topmost leaf above).2 = .ok true ∧
        hostnameMatchesCert t hostname leaf.2 = .ok true := by
  constructor
  · intro h
    rcases hchain : parseChain K chain with - | (- | ⟨leaf, above⟩)
    · rw [verifyP256Chain_unparsed hchain] at h
      cases h
    · -- nothing parsed: the chain is empty
      cases chain <;> simp [verifyP256Chain, hchain] at h
    · rw [verifyP256Chain_parsed hchain] at h
      split at h
      · next hp256 =>
        rcases Run.bind_eq_ok h with ⟨b, hpairs, h⟩
        split at h
        · next hb =>
          rcases Run.bind_eq_ok h with ⟨b', hroot, h⟩
          split at h
          · next hb' => exact ⟨leaf, above, rfl, hp256, hb ▸ hpairs, hb' ▸ hroot, h⟩
          · cases h
        · cases h
      · cases h
  · rintro ⟨leaf, above, hchain, hp256, hpairs, hroot, hhost⟩
    rw [verifyP256Chain_parsed hchain, if_pos hp256, hpairs, Run.ok_bind, if_pos rfl, hroot,
      Run.ok_bind, if_pos rfl, hhost]

/-! ## The certification path -/

/-- A certificate with a trust anchor's SubjectPublicKeyInfo passes the root test whatever its
signature says. -/
theorem isSignedByMozillaRoot_of_spkiIsAnchor {der : Bytes} {cert : Certificate}
    (h : spkiIsAnchor K t cert = .ok true) : isSignedByMozillaRoot K t der cert = .ok true := by
  rw [isSignedByMozillaRoot, h]
  rfl

/-- The root test accepts through one of its two cases: the SubjectPublicKeyInfo, or the loop over
the anchors. -/
theorem isSignedByMozillaRoot_cases {c : Bytes × Certificate}
    (h : isSignedByMozillaRoot K t c.1 c.2 = .ok true) :
    spkiIsAnchor K t c.2 = .ok true ∨
      (spkiIsAnchor K t c.2 = .ok false ∧ ∃ tbsDer sigBytes,
        extractTbsDer t c.1 = .ok (some tbsDer) ∧ c.2.signature.asBytes = some sigBytes ∧
        someAnchorVerifies K t tbsDer sigBytes c.2.signatureAlgorithm.oid K.tlsServerRoots
          = .ok true) := by
  rcases Run.bind_eq_ok h with ⟨b, hb, h⟩
  cases b with
  | true => exact Or.inl hb
  | false =>
      refine Or.inr ⟨hb, ?_⟩
      rcases Run.bind_eq_ok h with ⟨o, htbs, h⟩
      cases o with
      | none => cases h
      | some tbsDer =>
          cases hsig : c.2.signature.asBytes with
          | none => simp [hsig] at h
          | some sigBytes =>
              simp only [hsig] at h
              exact ⟨tbsDer, sigBytes, htbs, rfl, h⟩

/-- In the second case an anchor's key verifies the certificate. -/
theorem isSignedByMozillaRoot_true {c : Bytes × Certificate}
    (h : isSignedByMozillaRoot K t c.1 c.2 = .ok true) :
    (chainPki K t).pinned c ∨ (chainPki K t).AnchorSigned c := by
  rcases isSignedByMozillaRoot_cases h with hpin | ⟨-, tbsDer, sigBytes, htbs, hsig, hloop⟩
  · exact Or.inl hpin
  · rcases someAnchorVerifies_true hloop with ⟨a, ha, hv⟩
    rcases anchorVerifies_iff.mp hv with ⟨key, hkey, hverifies⟩
    exact Or.inr ⟨key, ⟨a, ha, hkey⟩, tbsDer, sigBytes, htbs, hsig, hverifies⟩

theorem issues_iff {child issuer : Bytes × Certificate} :
    verifyCertSig K t child.1 child.2 issuer.2 = .ok true ↔ (chainPki K t).Issues issuer child :=
  verifyCertSig_iff

/-- **The two signature checks make a certification path**, by induction on the chain: the
pairwise loop gives the steps, the root test the top. -/
theorem path_of_checks {leaf : Bytes × Certificate} {above : List (Bytes × Certificate)}
    (hpairs : verifyPairs K t (leaf :: above) = .ok true)
    (hroot : isSignedByMozillaRoot K t (topmost leaf above).1 (topmost leaf above).2 = .ok true) :
    (chainPki K t).Path (leaf :: above) := by
  induction above generalizing leaf with
  | nil => exact Pki.path_singleton_iff.mpr (isSignedByMozillaRoot_true hroot)
  | cons issuer rest ih =>
      rcases verifyPairs_cons_cons_iff.mp hpairs with ⟨hsig, hrest⟩
      exact .issued (issues_iff.mp hsig) (ih hrest hroot)

theorem verifyP256Chain_path {chain : List Bytes} {hostname : String}
    (h : verifyP256Chain K t chain hostname = .ok true) :
    ∃ certs, parseChain K chain = some certs ∧ (chainPki K t).Path certs := by
  rcases verifyP256Chain_iff.mp h with ⟨leaf, above, hparse, -, hpairs, hroot, -⟩
  exact ⟨leaf :: above, hparse, path_of_checks hpairs hroot⟩

/-! ## From a path to the checks

The other direction needs the checks to return at all: the SubjectPublicKeyInfo comparison on
the last certificate, and the reader of every trust anchor that the loop passes. -/

variable (K t) in
/-- No trust anchor makes `spki_alg_and_key` panic. -/
def AnchorsReadable : Prop :=
  ∀ a ∈ K.tlsServerRoots, ∃ v, spkiAlgAndKey K t a.subjectPublicKeyInfo = .ok v

theorem anchorVerifies_returns {a : TrustAnchor} {tbsDer sigBytes : Bytes}
    {sigAlg : ObjectIdentifier} (h : ∃ v, spkiAlgAndKey K t a.subjectPublicKeyInfo = .ok v) :
    ∃ b, anchorVerifies K t a tbsDer sigBytes sigAlg = .ok b := by
  rcases h with ⟨v, hv⟩
  rw [anchorVerifies, hv, Run.ok_bind]
  rcases v with - | ⟨keyAlg, keyBytes⟩
  · exact ⟨false, rfl⟩
  · dsimp only
    split_ifs
    all_goals exact ⟨_, rfl⟩

theorem isSignedByMozillaRoot_of_anchorSigned {c : Bytes × Certificate}
    (hread : AnchorsReadable K t) (hspki : ∃ b, spkiIsAnchor K t c.2 = .ok b)
    (h : (chainPki K t).AnchorSigned c) : isSignedByMozillaRoot K t c.1 c.2 = .ok true := by
  rcases h with ⟨key, ⟨a, ha, hkey⟩, tbsDer, sigBytes, htbs, hsig, hverifies⟩
  have haccepts : anchorVerifies K t a tbsDer sigBytes c.2.signatureAlgorithm.oid = .ok true :=
    anchorVerifies_iff.mpr ⟨key, hkey, hverifies⟩
  have hloop := someAnchorVerifies_of_mem ha haccepts
    fun a ha => anchorVerifies_returns (hread a ha)
  rcases hspki with ⟨b, hb⟩
  rw [isSignedByMozillaRoot, hb, Run.ok_bind]
  cases b with
  | true => rfl
  | false =>
      rw [if_neg Bool.false_ne_true, htbs, Run.ok_bind]
      simp only [hsig, hloop]

/-- **A certification path passes the signature checks**, by induction on the path. -/
theorem checks_of_path {leaf : Bytes × Certificate} {above : List (Bytes × Certificate)}
    (hread : AnchorsReadable K t)
    (hspki : ∀ c ∈ leaf :: above, ∃ b, spkiIsAnchor K t c.2 = .ok b)
    (h : (chainPki K t).Path (leaf :: above)) :
    verifyPairs K t (leaf :: above) = .ok true ∧
      isSignedByMozillaRoot K t (topmost leaf above).1 (topmost leaf above).2 = .ok true := by
  induction above generalizing leaf with
  | nil =>
      refine ⟨rfl, ?_⟩
      rcases Pki.path_singleton_iff.mp h with hpin | hsigned
      · exact isSignedByMozillaRoot_of_spkiIsAnchor hpin
      · exact isSignedByMozillaRoot_of_anchorSigned hread (hspki leaf (by simp)) hsigned
  | cons issuer rest ih =>
      rcases Pki.path_cons_cons_iff.mp h with ⟨hissues, hpath⟩
      rcases ih (fun c hc => hspki c (by simp [hc])) hpath with ⟨hpairs, hroot⟩
      exact ⟨verifyPairs_cons_cons_iff.mpr ⟨issues_iff.mpr hissues, hpairs⟩, hroot⟩

end ProvenoOracle
