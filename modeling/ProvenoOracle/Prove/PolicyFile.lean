import ProvenoOracle.Prove.PolicyCommitment

/-! # A policy file that changes

With `--policy` naming a file, `main` loads the document at the start and enforces it, and
`build_proof_artifacts_with_openvm` loads the same name again after the host has proven. Whoever
changes the file in between decides which policy the replayed guest input carries
(`policy_attached_iff`).
-/

set_option autoImplicit false

namespace ProvenoOracle

/-- `OraclePolicy::load_spec` on a file: its contents, parsed, or the error of a missing file. -/
def loadPolicyFile {Policy : Type} (missing : String) (parse : Bytes → Except String Policy) :
    Option Bytes → Except String Policy
  | none => .error missing
  | some contents => parse contents

/-- **An OpenVM run under a policy file**: what the file holds at the start, and what others put
into it, or that they remove it, up to the second load. -/
structure PolicyFileRun (C : ProvenoCrates) where
  run : PolicyRun C
  openvm : run.backend = .openvm
  missing : String
  parse : Bytes → Except String C.Policy
  contents : Option Bytes
  changes : List (Option Bytes)
  loadedFirst : run.start.loadSpec run.spec = loadPolicyFile missing parse contents
  loadedAgain : run.later.loadSpec run.spec
    = loadPolicyFile missing parse (changes.foldl (fun _ c => c) contents)

variable {C : ProvenoCrates}

/-- **The enforced policy is attached**: the replayed guest input carries its canonical bytes, and
the reported policy hash is its hash. -/
structure PolicyFileRun.AttachesEnforced (r : PolicyFileRun C) : Prop where
  attached : ∃ guest, r.run.guestInput = some guest ∧
    guest.policyCanonical = some (C.canonicalBytes r.run.policy)
  reported : r.run.artifacts.publicInputs.policyHash = C.policyHash r.run.policy

/-- **When the enforced policy is the attached one**: exactly when the file, as it is at the second
load, holds a policy with the same canonical bytes. -/
theorem policy_attached_iff (hC : C.PolicyConventions) (r : PolicyFileRun C) :
    r.AttachesEnforced ↔
      ∃ policy, loadPolicyFile r.missing r.parse (r.changes.foldl (fun _ c => c) r.contents)
          = .ok policy ∧
        C.canonicalBytes policy = C.canonicalBytes r.run.policy := by
  rcases r.run.guestInput_openvm r.openvm with
    ⟨guest, replayed, policy, hguest, hreplay, hload, hcanonical⟩
  rw [r.loadedAgain] at hload
  constructor
  · intro hattaches
    rcases hattaches.attached with ⟨guest', hguest', hattached⟩
    have hsame : guest = guest' := Option.some.inj (hguest.symm.trans hguest')
    rw [← hsame, hcanonical] at hattached
    exact ⟨policy, hload, Option.some.inj hattached⟩
  · rintro ⟨policy', hload', hbytes⟩
    have hsame : policy = policy' := Except.ok.inj (hload.symm.trans hload')
    have hattached : guest.policyCanonical = some (C.canonicalBytes r.run.policy) := by
      rw [hcanonical, hsame, hbytes]
    exact ⟨⟨guest, hguest, hattached⟩, hC.attached guest r.run.policy replayed _ hattached hreplay⟩

/-! ## A file that is replaced -/

/-- The error of a file that is not there. -/
def noSuchFile : String := "No such file or directory (os error 2)"

/-- The document of a profile, parsed. -/
def parseProfile (contents : Bytes) : Except String Profile :=
  match profiles.find? fun p => p.canonical = contents with
  | some p => .ok p
  | none => .error "expected value at line 1 column 1"

theorem loadPolicyFile_canonical (p : Profile) :
    loadPolicyFile noSuchFile parseProfile (some p.canonical) = .ok p := by
  cases p <;> decide +kernel

/-- The environment while the policy file has the given contents. -/
def policyFileEnv (contents : Option Bytes) : Env plainCrates :=
  { quietEnv with
    loadSpec := fun spec =>
      if spec = "policy.json" then loadPolicyFile noSuchFile parseProfile contents
      else loadProfile spec }

theorem policyFileEnv_loadSpec (p : Profile) :
    (policyFileEnv (some p.canonical)).loadSpec "policy.json" = .ok p := by
  show (if "policy.json" = "policy.json" then
    loadPolicyFile noSuchFile parseProfile (some p.canonical) else loadProfile "policy.json") = .ok p
  rw [if_pos rfl, loadPolicyFile_canonical]

/-- `return 1 + 2`, executed under `policy.json` with one profile and replayed with another. -/
def replacedRun (first second : Profile) : PolicyRun plainCrates where
  cli := plainCli "openvm" (some "policy.json")
  spec := "policy.json"
  start := policyFileEnv (some first.canonical)
  later := policyFileEnv (some second.canonical)
  policy := first
  backend := .openvm
  program := addProgram
  source := "return 1 + 2"
  host := ()
  output := addProgram.output
  before := fun _ => none
  after := (proveWith plainCrates (policyFileEnv (some second.canonical))
    (plainCli "openvm" (some "policy.json")) addProgram "return 1 + 2" addProgram.output .openvm
    fun _ => none).2
  artifacts := okValue (proveWith plainCrates (policyFileEnv (some second.canonical))
    (plainCli "openvm" (some "policy.json")) addProgram "return 1 + 2" addProgram.output .openvm
    fun _ => none) (by cases second <;> decide +kernel)
  given := rfl
  named := rfl
  loaded := policyFileEnv_loadSpec first
  executed := rfl
  proved := eq_okValue _ _

/-- The file holds the first profile, is removed, and then holds the second. -/
def replacedFile (first second : Profile) : PolicyFileRun plainCrates where
  run := replacedRun first second
  openvm := rfl
  missing := noSuchFile
  parse := parseProfile
  contents := some first.canonical
  changes := [none, some second.canonical]
  loadedFirst := rfl
  loadedAgain := rfl

theorem policy_attached_iff_restored :
    (replacedFile .constrainedHttpV1 .constrainedHttpV1).AttachesEnforced := by
  apply (policy_attached_iff plainCrates_policyConventions _).mpr
  exact ⟨.constrainedHttpV1, loadPolicyFile_canonical _, rfl⟩

/-- A run that enforces one profile reports the hash of the one that has replaced it. -/
theorem replaced_policy_attached :
    (replacedRun .constrainedHttpV1 .templatePriceFeedV1).artifacts.publicInputs.policyHash
        = plainCrates.policyHash .templatePriceFeedV1 ∧
      ¬(replacedFile .constrainedHttpV1 .templatePriceFeedV1).AttachesEnforced := by
  have hreported :
      (replacedRun .constrainedHttpV1 .templatePriceFeedV1).artifacts.publicInputs.policyHash
        = plainCrates.policyHash .templatePriceFeedV1 := by
    rcases (replacedRun .constrainedHttpV1 .templatePriceFeedV1).guestInput_openvm rfl with
      ⟨guest, replayed, policy, -, hreplay, hload, hcanonical⟩
    have hfound : (replacedRun .constrainedHttpV1 .templatePriceFeedV1).later.loadSpec "policy.json"
        = .ok .templatePriceFeedV1 := policyFileEnv_loadSpec _
    have hpolicy : policy = .templatePriceFeedV1 := Except.ok.inj (hload.symm.trans hfound)
    rw [hpolicy] at hcanonical
    exact plainCrates_policyConventions.attached guest _ replayed _ hcanonical hreplay
  refine ⟨hreported, ?_⟩
  intro hattaches
  have hsame : Profile.hash .templatePriceFeedV1 = Profile.hash .constrainedHttpV1 :=
    hreported.symm.trans hattaches.reported
  exact absurd hsame (by decide +kernel)

end ProvenoOracle
