import ProvenoOracle.Prove.ConcreteRun

/-! # Is the enforced policy the committed one?

`main` loads the policy document once and enforces it. The OpenVM backend is handed the
document's name and loads it again; the Noir backend is handed nothing, and its public inputs
leave the policy hash unset. So the enforced policy is committed exactly when the second load
finds a document with the same hash, or, under Noir, when the policy hashes to the unset value
(`policyRun_commits_iff`).
-/

set_option autoImplicit false

namespace ProvenoOracle

/-- How the crates treat the policy hash. -/
structure ProvenoCrates.PolicyConventions (C : ProvenoCrates) : Prop where
  /-- `compute_public_inputs` leaves the policy hash unset. -/
  unset : ∀ (programHash : ByteArr 32) (input : C.Value) (tape : C.Tape) (output : C.Output),
    (C.computePublicInputs programHash input tape output).policyHash = zero32
  /-- A replay commits the policy whose canonical bytes are attached. -/
  attached : ∀ (guest : C.Guest) (policy : C.Policy) (output : C.Output) (pi : PublicInputs),
    guest.policyCanonical = some (C.canonicalBytes policy) →
    C.replayPublicInputs guest = .ok (output, pi) → pi.policyHash = C.policyHash policy

variable {C : ProvenoCrates}

/-- **The committed policy is the enforced policy**: the artifacts report its hash, and so does
the last word of the Noir public inputs. -/
structure PolicyRun.Commits (r : PolicyRun C) : Prop where
  reported : r.artifacts.publicInputs.policyHash = C.policyHash r.policy
  noirWord : r.backend = .noir → ∃ summary, r.artifacts.noirProof = some summary ∧
    summary.publicInputsHex[7]? = some (bytes32Hex (C.policyHash r.policy))

/-- The policy hash can reach the proof: under OpenVM the document found while proving hashes to
the enforced one, under Noir the enforced policy hashes to the unset value. -/
def PolicyRun.HashReachesProof (r : PolicyRun C) : Prop :=
  match r.backend with
  | .openvm => ∃ policy, r.later.loadSpec r.spec = .ok policy ∧
      C.policyHash policy = C.policyHash r.policy
  | .noir => C.policyHash r.policy = zero32

/-- Under Noir the reported policy hash is unset, and the last word says the same. -/
theorem PolicyRun.noir_reports (hC : C.PolicyConventions) (r : PolicyRun C)
    (hb : r.backend = .noir) :
    r.artifacts.publicInputs.policyHash = zero32 ∧
      ∃ summary, r.artifacts.noirProof = some summary ∧
        summary.publicInputsHex[7]? = some (bytes32Hex r.artifacts.publicInputs.policyHash) := by
  have hproved := r.proved
  rw [hb] at hproved
  obtain ⟨hpi, summary, out, hsummary, hwords⟩ := buildProofArtifactsWithNoir_ok hproved
  refine ⟨?_, summary, hsummary, ?_⟩
  · rw [hpi]
    exact hC.unset _ _ _ _
  · rw [hwords]
    rfl

/-- The guest input that the run replays. -/
def PolicyRun.guestInput (r : PolicyRun C) : Option C.Guest :=
  match (proveAndReadBack C r.later r.program r.source C.nil r.output []
    ⟨r.cli.proveOutput, r.cli.openvmLevel, r.cli.policy⟩ r.before).1 with
  | .ok (_, _, guest) => some guest
  | .error _ => none

/-- An OpenVM run has replayed a guest input that carries the policy found by the second load. -/
theorem PolicyRun.guestInput_openvm (r : PolicyRun C) (hb : r.backend = .openvm) :
    ∃ guest replayed policy, r.guestInput = some guest ∧
      C.replayPublicInputs guest = .ok (replayed, r.artifacts.publicInputs) ∧
      r.later.loadSpec r.spec = .ok policy ∧
      guest.policyCanonical = some (C.canonicalBytes policy) := by
  have hproved := r.proved
  rw [hb] at hproved
  rcases buildProofArtifactsWithOpenvm_ok hproved with
    ⟨artifacts', out, guest, replayed, hread, hreplay⟩
  rcases proveAndReadBack_ok hread with ⟨_, _, _, _, -, -, -, hguest⟩
  -- the guest input carries the document that the specification names now
  rcases readGuestInput_ok hguest with
    ⟨_, _, _, _, _, _, -, -, -, -, -, -, -, -, -, -, -, hpolicy⟩
  have hgiven := r.given
  simp only [hgiven] at hpolicy
  rcases hpolicy with ⟨policy, hload, hcanonical⟩
  refine ⟨guest, replayed, policy, ?_, hreplay, hload, hcanonical⟩
  rw [PolicyRun.guestInput, hread]

/-- Under OpenVM the reported policy hash is that of the document found while proving. -/
theorem PolicyRun.openvm_reports (hC : C.PolicyConventions) (r : PolicyRun C)
    (hb : r.backend = .openvm) :
    ∃ policy, r.later.loadSpec r.spec = .ok policy ∧
      r.artifacts.publicInputs.policyHash = C.policyHash policy := by
  obtain ⟨guest, replayed, policy, -, hreplay, hload, hcanonical⟩ := r.guestInput_openvm hb
  exact ⟨policy, hload, hC.attached guest policy replayed _ hcanonical hreplay⟩

/-- **When the committed policy is the enforced one**, for each backend. -/
theorem policyRun_commits_iff (hC : C.PolicyConventions) (r : PolicyRun C) :
    r.Commits ↔ r.HashReachesProof := by
  unfold PolicyRun.HashReachesProof
  cases hb : r.backend with
  | noir =>
      obtain ⟨hzero, summary, hsummary, hword⟩ := r.noir_reports hC hb
      constructor
      · intro hcommits
        exact hcommits.reported.symm.trans hzero
      · intro hunset
        have hsame : r.artifacts.publicInputs.policyHash = C.policyHash r.policy := by
          rw [hzero, hunset]
        exact ⟨hsame, fun _ => ⟨summary, hsummary, by rw [hword, hsame]⟩⟩
  | openvm =>
      obtain ⟨policy, hload, hreported⟩ := r.openvm_reports hC hb
      constructor
      · intro hcommits
        exact ⟨policy, hload, hreported.symm.trans hcommits.reported⟩
      · rintro ⟨policy', hload', hhash⟩
        obtain rfl : policy = policy' := Except.ok.inj (hload.symm.trans hload')
        refine ⟨hreported.trans hhash, ?_⟩
        intro hnoir
        rw [hb] at hnoir
        cases hnoir

theorem plainCrates_policyConventions : plainCrates.PolicyConventions where
  unset _ _ _ _ := rfl
  attached guest policy output pi hcanonical hreplay := by
    have hhash : canonicalHash policy.canonical = policy.hash := by
      cases policy <;> decide +kernel
    have hsuccess : plainReplay guest = .ok (output, pi) := hreplay
    by_cases hwithin : guest.program.within guest.config
    · rw [plainReplay_of_within hwithin, hcanonical] at hsuccess
      obtain ⟨-, rfl⟩ := Prod.mk.inj (Except.ok.inj hsuccess)
      exact hhash
    · rw [plainReplay_of_not_within hwithin] at hsuccess
      cases hsuccess

theorem policyRun_commits_iff_add_openvm :
    (addRun .openvm .constrainedHttpV1).Commits ↔
      (addRun .openvm .constrainedHttpV1).HashReachesProof :=
  policyRun_commits_iff plainCrates_policyConventions _

/-- The default backend drops the policy: both profiles are enforced with success, their hashes
differ, and the artifacts of both runs report the same, unset hash. -/
theorem noir_drops_policy :
    ¬(addRun .noir .constrainedHttpV1).Commits ∧
      plainCrates.policyHash (addRun .noir .constrainedHttpV1).policy
        ≠ plainCrates.policyHash (addRun .noir .templatePriceFeedV1).policy ∧
      (addRun .noir .constrainedHttpV1).artifacts.publicInputs.policyHash = zero32 ∧
      (addRun .noir .templatePriceFeedV1).artifacts.publicInputs.policyHash = zero32 := by
  have hunset : ∀ p, (addRun .noir p).artifacts.publicInputs.policyHash = zero32 := by
    intro p
    exact ((addRun .noir p).noir_reports plainCrates_policyConventions rfl).1
  refine ⟨?_, by decide +kernel, hunset _, hunset _⟩
  intro hcommits
  have hzero : Profile.hash .constrainedHttpV1 = zero32 :=
    hcommits.reported.symm.trans (hunset .constrainedHttpV1)
  exact absurd hzero (by decide +kernel)

end ProvenoOracle
