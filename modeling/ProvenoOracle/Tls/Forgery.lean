import ProvenoOracle.Tls.Chain
import ProvenoOracle.Tls.ConcreteCrates

/-! # What an accepted chain vouches for

Two questions about a chain that `verify_p256_chain` accepts. Is the leaf covered by a
signature? Always, except for a single certificate that carries a trust anchor's key: the root
test accepts it before any signature is looked at (`leaf_covered_iff`). Which certificates may
issue others? Any one whose key has signed its predecessor: the extensions of an issuer, and
with them basicConstraints, play no part (`accepted_issuers_by_key_only`).
-/

set_option autoImplicit false

namespace ProvenoOracle

open Codec

/-! ## Coverage of the leaf -/

section Coverage

variable (K : Crates) (t : Target)

/-- **The leaf's TBS bytes are covered** by a signature that verifies: under the key of the next
certificate, and under a trust anchor's key when the leaf is the only certificate. -/
def LeafCovered : List Bytes → Prop
  | [] => False
  | [leafDer] =>
      ∃ leaf, K.certificateFromDer leafDer = some leaf ∧
        ∃ a ∈ K.tlsServerRoots, ∃ key, AnchorKey K t a key ∧ SignedUnder K t leafDer leaf key
  | leafDer :: issuerDer :: _ =>
      ∃ leaf issuer, K.certificateFromDer leafDer = some leaf ∧
        K.certificateFromDer issuerDer = some issuer ∧
        ∃ key, certKey K issuer = some key ∧ SignedUnder K t leafDer leaf key

/-- The chain is a single P-256 certificate for `hostname` that carries a trust anchor's
SubjectPublicKeyInfo while no trust anchor's key verifies its signature. -/
def BorrowsAnchorKey (chain : List Bytes) (hostname : String) : Prop :=
  ∃ leafDer leaf, chain = [leafDer] ∧ K.certificateFromDer leafDer = some leaf ∧
    spkiIsP256 K leaf = true ∧ hostnameMatchesCert t hostname leaf = .ok true ∧
    spkiIsAnchor K t leaf = .ok true ∧
    ∀ a ∈ K.tlsServerRoots, ∀ key, AnchorKey K t a key → ¬SignedUnder K t leafDer leaf key

variable {K t}

theorem parseChain_singleton {der : Bytes} {certs : List (Bytes × Certificate)} :
    parseChain K [der] = some certs ↔
      ∃ cert, K.certificateFromDer der = some cert ∧ certs = [(der, cert)] := by
  rw [parseChain_cons]
  constructor
  · rintro ⟨cert, above, hcert, habove, rfl⟩
    cases habove
    exact ⟨cert, hcert, rfl⟩
  · rintro ⟨cert, hcert, rfl⟩
    exact ⟨cert, [], hcert, rfl, rfl⟩

/-- With an issuer in the chain, the pairwise loop has checked the leaf. -/
theorem leafCovered_of_issuer {leafDer issuerDer : Bytes} {rest : List Bytes} {hostname : String}
    (h : verifyP256Chain K t (leafDer :: issuerDer :: rest) hostname = .ok true) :
    LeafCovered K t (leafDer :: issuerDer :: rest) := by
  rcases verifyP256Chain_iff.mp h with ⟨leaf, above, hparse, -, hpairs, -, -⟩
  rcases parseChain_cons.mp hparse with ⟨leafCert, certs, hleaf, hcerts, heq⟩
  rcases parseChain_cons.mp hcerts with ⟨issuerCert, _, hissuer, -, rfl⟩
  rcases List.cons.inj heq with ⟨rfl, rfl⟩
  have hsig := (verifyPairs_cons_cons_iff.mp hpairs).1
  exact ⟨leafCert, issuerCert, hleaf, hissuer, verifyCertSig_iff.mp hsig⟩

/-- **When an acceptance covers the leaf**: always, unless a lone certificate has borrowed a
trust anchor's key. -/
theorem leaf_covered_iff (K : Crates) (t : Target) (chain : List Bytes) (hostname : String) :
    (verifyP256Chain K t chain hostname = .ok true → LeafCovered K t chain) ↔
      ¬BorrowsAnchorKey K t chain hostname := by
  constructor
  · -- a borrowed key is accepted without a signature
    rintro hcovered ⟨leafDer, leaf, rfl, hleaf, hp256, hhost, hpin, hunsigned⟩
    have haccept : verifyP256Chain K t [leafDer] hostname = .ok true := by
      rw [verifyP256Chain_iff]
      refine ⟨(leafDer, leaf), [], parseChain_singleton.mpr ⟨leaf, hleaf, rfl⟩, hp256, rfl, ?_,
        hhost⟩
      exact isSignedByMozillaRoot_of_spkiIsAnchor hpin
    rcases hcovered haccept with ⟨leaf', hleaf', a, ha, key, hkey, hsigned⟩
    obtain rfl : leaf = leaf' := Option.some.inj (hleaf.symm.trans hleaf')
    exact hunsigned a ha key hkey hsigned
  · intro hborrow haccept
    rcases chain with - | ⟨leafDer, - | ⟨issuerDer, rest⟩⟩
    · cases haccept
    · -- the leaf alone: only the root test looks at it
      rcases verifyP256Chain_iff.mp haccept with ⟨leaf, above, hparse, hp256, -, hroot, hhost⟩
      rcases parseChain_singleton.mp hparse with ⟨cert, hcert, heq⟩
      rcases List.cons.inj heq with ⟨rfl, rfl⟩
      by_contra huncovered
      have hunsigned : ∀ a ∈ K.tlsServerRoots, ∀ key, AnchorKey K t a key →
          ¬SignedUnder K t leafDer cert key := by
        intro a ha key hkey hsigned
        exact huncovered ⟨cert, hcert, a, ha, key, hkey, hsigned⟩
      rcases isSignedByMozillaRoot_true hroot with hpin | ⟨key, ⟨a, ha, hkey⟩, hsigned⟩
      · exact hborrow ⟨leafDer, cert, rfl, hcert, hp256, hhost, hpin, hunsigned⟩
      · exact hunsigned a ha key hkey hsigned
    · exact leafCovered_of_issuer haccept

/-- A failed anchor loop has ruled out every trust anchor. -/
theorem not_signedUnder_of_someAnchorVerifies {der tbsDer sigBytes : Bytes} {cert : Certificate}
    (htbs : extractTbsDer t der = .ok (some tbsDer)) (hsig : cert.signature.asBytes = some sigBytes)
    (hloop : someAnchorVerifies K t tbsDer sigBytes cert.signatureAlgorithm.oid K.tlsServerRoots
      = .ok false) :
    ∀ a ∈ K.tlsServerRoots, ∀ key, AnchorKey K t a key → ¬SignedUnder K t der cert key := by
  rintro a ha key hkey ⟨tbsDer', sigBytes', htbs', hsig', hverifies⟩
  have hround := someAnchorVerifies_false hloop a ha
  -- the loop looked at the same bytes and the same signature
  rw [htbs] at htbs'
  rw [hsig] at hsig'
  cases htbs'
  cases hsig'
  have htrue := anchorVerifies_iff.mpr ⟨key, hkey, hverifies⟩
  rw [hround] at htrue
  cases htrue

/-- Anyone can put a trust anchor's public key into a certificate for `c.d`; no key of the
infrastructure has signed it, and it is accepted. -/
theorem borrowed_key_accepted_uncovered :
    verifyP256Chain smallPki .host64 [borrowedKeyCert.der] "c.d" = .ok true ∧
      ¬LeafCovered smallPki .host64 [borrowedKeyCert.der] := by
  refine ⟨by decide +kernel, ?_⟩
  -- the loop over the anchors, which the acceptance skipped, would have failed
  rintro ⟨leaf, hleaf, a, ha, key, hkey, hsigned⟩
  have hparse : smallPki.certificateFromDer borrowedKeyCert.der = some borrowedKeyCert.parsed := by
    decide +kernel
  rw [hparse] at hleaf
  cases hleaf
  have htbs : extractTbsDer .host64 borrowedKeyCert.der = .ok (some borrowedKeyCert.tbsDer) := by
    decide +kernel
  refine not_signedUnder_of_someAnchorVerifies htbs rfl ?_ a ha key hkey hsigned
  decide +kernel

end Coverage

/-! ## Who may issue -/

section Issuers

/-- The certificate with other extensions. -/
def Certificate.withExtensions (cert : Certificate) (exts : Option (List Extension)) :
    Certificate :=
  { cert with tbsCertificate := { cert.tbsCertificate with extensions := exts } }

/-- **A CA certificate**: its extensions contain basicConstraints with cA = TRUE. -/
def Certificate.IsCa (cert : Certificate) : Prop :=
  ∃ exts, cert.tbsCertificate.extensions = some exts ∧
    ∃ e ∈ exts, e.extnId = BASIC_CONSTRAINTS_OID ∧
      ∃ pathLen, e.extnValue = tlv 0x30 (tlv 0x01 [0xff] ++ pathLen)

variable (K : Crates) (t : Target)

/-- The crates with another certificate parser. -/
def Crates.withParser (parse : Bytes → Option Certificate) : Crates :=
  { K with certificateFromDer := parse }

/-- **Issuers are judged by their keys only.** In the chain `leafDer :: above`: -/
structure IssuersByKeyOnly (leafDer : Bytes) (above : List Bytes) : Prop where
  /-- Every certificate above the leaf carries a key under which its predecessor's TBS bytes
  verify. -/
  signs : ∀ (i : Nat) (hi : i + 1 < (leafDer :: above).length),
    ∃ child issuer key, K.certificateFromDer (leafDer :: above)[i] = some child ∧
      K.certificateFromDer (leafDer :: above)[i + 1] = some issuer ∧
      certKey K issuer = some key ∧ SignedUnder K t (leafDer :: above)[i] child key
  /-- Other extensions above the leaf leave the verdict as it is, for every hostname. -/
  ignoresExtensions : ∀ (parse : Bytes → Option Certificate)
    (exts : Bytes → Option (List Extension)) (hostname : String),
    parse leafDer = K.certificateFromDer leafDer →
    (∀ der ∈ above, parse der = (K.certificateFromDer der).map (·.withExtensions (exts der))) →
    verifyP256Chain (K.withParser parse) t (leafDer :: above) hostname
      = verifyP256Chain K t (leafDer :: above) hostname
  /-- The holder of the leaf's key extends the chain by exactly the P-256 certificates it has
  signed, for the hostnames these name. -/
  extends_iff : ∀ (newDer : Bytes) (hostname : String),
    verifyP256Chain K t (newDer :: leafDer :: above) hostname = .ok true ↔
      ∃ new leaf key, K.certificateFromDer newDer = some new ∧
        K.certificateFromDer leafDer = some leaf ∧ spkiIsP256 K new = true ∧
        hostnameMatchesCert t hostname new = .ok true ∧
        certKey K leaf = some key ∧ SignedUnder K t newDer new key

variable {K t}

/-- A parsed certificate with other extensions, chosen by its encoding. -/
def reextend (exts : Bytes → Option (List Extension)) (c : Bytes × Certificate) :
    Bytes × Certificate :=
  (c.1, c.2.withExtensions (exts c.1))

theorem parseChain_reextend {parse : Bytes → Option Certificate}
    {exts : Bytes → Option (List Extension)} {ders : List Bytes}
    (h : ∀ der ∈ ders, parse der = (K.certificateFromDer der).map (·.withExtensions (exts der))) :
    parseChain (K.withParser parse) ders = (parseChain K ders).map (List.map (reextend exts)) := by
  induction ders with
  | nil => rfl
  | cons der rest ih =>
      have hder : (K.withParser parse).certificateFromDer der
          = (K.certificateFromDer der).map (·.withExtensions (exts der)) := h der (by simp)
      rw [parseChain, parseChain, hder, ih fun d hd => h d (by simp [hd])]
      cases K.certificateFromDer der with
      | none => rfl
      | some cert => cases parseChain K rest <;> rfl

/-- The signature check reads neither the parser nor an extension. -/
theorem verifyCertSig_reextend (parse : Bytes → Option Certificate)
    (exts : Bytes → Option (List Extension)) (der : Bytes) {child child' : Certificate}
    (issuer : Bytes × Certificate) (hsig : child'.signature = child.signature)
    (halg : child'.signatureAlgorithm = child.signatureAlgorithm) :
    verifyCertSig (K.withParser parse) t der child' (reextend exts issuer).2
      = verifyCertSig K t der child issuer.2 := by
  unfold verifyCertSig
  rw [hsig, halg]
  rfl

theorem verifyPairs_reextend (parse : Bytes → Option Certificate)
    (exts : Bytes → Option (List Extension)) (above : List (Bytes × Certificate)) (der : Bytes)
    (cert cert' : Certificate) (hsig : cert'.signature = cert.signature)
    (halg : cert'.signatureAlgorithm = cert.signatureAlgorithm) :
    verifyPairs (K.withParser parse) t ((der, cert') :: above.map (reextend exts))
      = verifyPairs K t ((der, cert) :: above) := by
  induction above generalizing der cert cert' with
  | nil => rfl
  | cons issuer rest ih =>
      have hfirst := verifyCertSig_reextend (K := K) (t := t) parse exts der issuer hsig halg
      have hrest := ih issuer.1 issuer.2 (reextend exts issuer).2 rfl rfl
      rw [List.map_cons, verifyPairs, verifyPairs, hfirst]
      -- the two loops continue alike, whatever the first verdict is
      exact congrArg _ (funext fun b => by rw [← hrest]; rfl)

theorem someAnchorVerifies_withParser (parse : Bytes → Option Certificate)
    (tbsDer sigBytes : Bytes) (sigAlg : ObjectIdentifier) (anchors : List TrustAnchor) :
    someAnchorVerifies (K.withParser parse) t tbsDer sigBytes sigAlg anchors
      = someAnchorVerifies K t tbsDer sigBytes sigAlg anchors := by
  induction anchors with
  | nil => rfl
  | cons a rest ih =>
      rw [someAnchorVerifies, someAnchorVerifies, ih]
      rfl

theorem isSignedByMozillaRoot_reextend (parse : Bytes → Option Certificate)
    (exts : Bytes → Option (List Extension)) (c : Bytes × Certificate) :
    isSignedByMozillaRoot (K.withParser parse) t c.1 (reextend exts c).2
      = isSignedByMozillaRoot K t c.1 c.2 := by
  unfold isSignedByMozillaRoot
  simp only [someAnchorVerifies_withParser]
  rfl

/-- The last certificate keeps its place. -/
theorem topmost_reextend (exts : Bytes → Option (List Extension))
    (above : List (Bytes × Certificate)) (c : Bytes × Certificate) :
    topmost (reextend exts c) (above.map (reextend exts)) = reextend exts (topmost c above) := by
  induction above generalizing c with
  | nil => rfl
  | cons issuer rest ih => exact ih issuer

/-- The root test on the last certificate does not change either, whether or not that is the
leaf. -/
theorem rootTest_reextend (parse : Bytes → Option Certificate)
    (exts : Bytes → Option (List Extension)) (above : List (Bytes × Certificate))
    (leaf : Bytes × Certificate) :
    isSignedByMozillaRoot (K.withParser parse) t (topmost leaf (above.map (reextend exts))).1
        (topmost leaf (above.map (reextend exts))).2
      = isSignedByMozillaRoot K t (topmost leaf above).1 (topmost leaf above).2 := by
  cases above with
  | nil =>
      -- the leaf is the last certificate, and keeps its extensions
      exact isSignedByMozillaRoot_reextend parse (fun _ => leaf.2.tbsCertificate.extensions) leaf
  | cons issuer rest =>
      have htop : topmost leaf ((issuer :: rest).map (reextend exts))
          = reextend exts (topmost issuer rest) := topmost_reextend exts rest issuer
      rw [htop]
      exact isSignedByMozillaRoot_reextend parse exts (topmost issuer rest)

theorem verifyP256Chain_reextend {parse : Bytes → Option Certificate}
    {exts : Bytes → Option (List Extension)} {leafDer : Bytes} {above : List Bytes}
    (hostname : String) (hleaf : parse leafDer = K.certificateFromDer leafDer)
    (habove : ∀ der ∈ above,
      parse der = (K.certificateFromDer der).map (·.withExtensions (exts der))) :
    verifyP256Chain (K.withParser parse) t (leafDer :: above) hostname
      = verifyP256Chain K t (leafDer :: above) hostname := by
  have hparse : parseChain (K.withParser parse) (leafDer :: above) = do
      let leaf ← K.certificateFromDer leafDer
      let issuers ← (parseChain K above).map (List.map (reextend exts))
      return (leafDer, leaf) :: issuers := by
    rw [← parseChain_reextend habove, ← hleaf]
    rfl
  cases hcert : K.certificateFromDer leafDer with
  | none =>
      rw [hcert] at hparse
      rw [verifyP256Chain_unparsed hparse,
        verifyP256Chain_unparsed (by rw [parseChain, hcert]; rfl)]
  | some leaf =>
      cases hissuers : parseChain K above with
      | none =>
          rw [hcert, hissuers] at hparse
          rw [verifyP256Chain_unparsed hparse,
            verifyP256Chain_unparsed (by rw [parseChain, hcert, hissuers]; rfl)]
      | some issuers =>
          rw [hcert, hissuers] at hparse
          rw [verifyP256Chain_parsed hparse,
            verifyP256Chain_parsed (parseChain_cons.mpr ⟨leaf, issuers, hcert, hissuers, rfl⟩),
            verifyPairs_reextend parse exts issuers leafDer leaf leaf rfl rfl,
            rootTest_reextend parse exts issuers (leafDer, leaf)]
          rfl

/-- Every issuer of an accepted chain has signed its predecessor. -/
theorem signs_of_accepted {chain : List Bytes} {hostname : String}
    (h : verifyP256Chain K t chain hostname = .ok true) (i : Nat) (hi : i + 1 < chain.length) :
    ∃ child issuer key, K.certificateFromDer chain[i] = some child ∧
      K.certificateFromDer chain[i + 1] = some issuer ∧
      certKey K issuer = some key ∧ SignedUnder K t chain[i] child key := by
  rcases verifyP256Chain_path h with ⟨certs, hparse, hpath⟩
  obtain rfl := parseChain_map_fst hparse
  have hi' : i + 1 < certs.length := by simpa using hi
  have hmem := parseChain_mem hparse
  rcases hpath.issues_getElem i hi' with ⟨key, hholds, hsigned⟩
  refine ⟨certs[i].2, certs[i + 1].2, key, ?_, ?_, hholds, ?_⟩
  · rw [List.getElem_map]
    exact hmem _ (List.getElem_mem _)
  · rw [List.getElem_map]
    exact hmem _ (List.getElem_mem _)
  · rw [List.getElem_map]
    exact hsigned

/-- **Whoever holds the key of an accepted leaf can put a certificate below it.** -/
theorem extend_accepted_iff {leafDer newDer : Bytes} {above : List Bytes}
    {hostname hostname' : String}
    (h : verifyP256Chain K t (leafDer :: above) hostname = .ok true) :
    verifyP256Chain K t (newDer :: leafDer :: above) hostname' = .ok true ↔
      ∃ new leaf key, K.certificateFromDer newDer = some new ∧
        K.certificateFromDer leafDer = some leaf ∧ spkiIsP256 K new = true ∧
        hostnameMatchesCert t hostname' new = .ok true ∧
        certKey K leaf = some key ∧ SignedUnder K t newDer new key := by
  rcases verifyP256Chain_iff.mp h with ⟨leafCert, issuers, hparse, -, hpairs, hroot, -⟩
  rcases parseChain_cons.mp hparse with ⟨leaf, certs, hleaf, hcerts, heq⟩
  rcases List.cons.inj heq with ⟨rfl, rfl⟩
  constructor
  · -- the new leaf is checked, and then signed under the key of the old one
    intro hnew
    rcases verifyP256Chain_iff.mp hnew with ⟨newCert, below, hparse', hp256, hpairs', -, hhost⟩
    rcases parseChain_cons.mp hparse' with ⟨new, certs', hnewDer, hcerts', heq'⟩
    rw [hparse] at hcerts'
    obtain rfl := Option.some.inj hcerts'
    rcases List.cons.inj heq' with ⟨rfl, rfl⟩
    rcases verifyCertSig_iff.mp (verifyPairs_cons_cons_iff.mp hpairs').1 with ⟨key, hkey, hsigned⟩
    exact ⟨new, leaf, key, hnewDer, hleaf, hp256, hhost, hkey, hsigned⟩
  · -- the rest of the chain has passed its checks already
    rintro ⟨new, leaf', key, hnewDer, hleaf', hp256, hhost, hkey, hsigned⟩
    obtain rfl : leaf = leaf' := Option.some.inj (hleaf.symm.trans hleaf')
    have hfirst := verifyCertSig_iff.mpr ⟨key, hkey, hsigned⟩
    refine verifyP256Chain_iff.mpr ⟨(newDer, new), (leafDer, leaf) :: issuers,
      parseChain_cons.mpr ⟨new, _, hnewDer, hparse, rfl⟩, hp256, ?_, hroot, hhost⟩
    exact verifyPairs_cons_cons_iff.mpr ⟨hfirst, hpairs⟩

/-- **In an accepted chain, issuers are judged by their keys only.** -/
theorem accepted_issuers_by_key_only {leafDer : Bytes} {above : List Bytes} {hostname : String}
    (h : verifyP256Chain K t (leafDer :: above) hostname = .ok true) :
    IssuersByKeyOnly K t leafDer above where
  signs := signs_of_accepted h
  ignoresExtensions _ _ hostname' hleaf habove := verifyP256Chain_reextend hostname' hleaf habove
  extends_iff _ _ := extend_accepted_iff h

theorem accepted_issuers_by_key_only_leaf_root :
    verifyP256Chain smallPki .host64 [leafCert.der, rootCert.der] "a.b" = .ok true ∧
      IssuersByKeyOnly smallPki .host64 leafCert.der [rootCert.der] := by
  have haccept : verifyP256Chain smallPki .host64 [leafCert.der, rootCert.der] "a.b"
      = .ok true := by decide +kernel
  exact ⟨haccept, accepted_issuers_by_key_only haccept⟩

/-- The end-entity certificate for `a.b` is accepted, is no CA certificate, and is accepted as
the issuer of a certificate for `c.d`. -/
theorem end_entity_issues :
    verifyP256Chain smallPki .host64 [leafCert.der] "a.b" = .ok true ∧
      smallPki.certificateFromDer leafCert.der = some leafCert.parsed ∧
      ¬leafCert.parsed.IsCa ∧
      verifyP256Chain smallPki .host64 [mintedCert.der, leafCert.der] "c.d" = .ok true := by
  refine ⟨by decide +kernel, by decide +kernel, ?_, by decide +kernel⟩
  rintro ⟨exts, hexts, e, he, hid, -⟩
  obtain rfl := Option.some.inj hexts
  obtain rfl : e = sanFor [0x61, 0x2e, 0x62] := by simpa [leafCert] using he
  exact absurd hid (by decide)

end Issuers

end ProvenoOracle
