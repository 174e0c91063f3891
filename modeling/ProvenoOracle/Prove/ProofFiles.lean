import ProvenoOracle.Effect.Runs
import ProvenoOracle.Prove.ConcreteRun

/-! # Proof files and the artifacts beside them

Every call of `build_proof_artifacts_with_openvm` overwrites the three artifacts before it runs
the host binary, and the name of the proof depends on the level. So a call that fails, or that
proves on another level, can leave a proof of an earlier run beside the artifacts of a later one.
A directory is followed here together with the artifacts that each of its proof files was
produced from (`ProofDir`).
-/

set_option autoImplicit false

namespace ProvenoOracle

open Effect

/-! ## Calls -/

/-- `openvm.{level}.proof` -/
def proofName (level : String) : String := s!"openvm.{level}.proof"

/-- The files that `build_proof_artifacts` writes. -/
def artifactNames : List String := ["program.lua", "compiled.json", "dry_result.json"]

/-- What is in them. -/
def artifactFiles (dir : OutputDir) : List (Option Bytes) := artifactNames.map dir

/-- One call of `build_proof_artifacts_with_openvm`, with the environment that it meets. -/
structure OpenVmCall (C : ProvenoCrates) where
  env : Env C
  program : C.Program
  source : String
  input : C.Value
  output : C.Output
  attestations : List Bytes
  level : String
  policySpec : Option String

variable {C : ProvenoCrates}

namespace OpenVmCall

variable (outputDir : String) (c : OpenVmCall C)

def opts : OpenVmOptions := ⟨outputDir, c.level, c.policySpec⟩

/-- The files that the call leaves behind, whether it returns artifacts or an error. -/
def filesAfter (dir : OutputDir) : OutputDir :=
  (buildProofArtifactsWithOpenvm C c.env c.program c.source c.input c.output c.attestations
    (c.opts outputDir) dir).2

/-- The host's part of the call: the files it finds, what it answers and the files it leaves.
There is none if the artifacts could not be written. -/
def hostRun (dir : OutputDir) : Option (OutputDir × Except String HostOutput × OutputDir) :=
  match buildProofArtifacts C c.env c.program c.source c.input c.output c.attestations outputDir
    dir with
  | (.error _, _) => none
  | (.ok artifacts, found) =>
      let (programBin, args) := openvmHostCommand C c.env (openvmArgs artifacts (c.opts outputDir))
      some (found, c.env.runCommand programBin args found)

end OpenVmCall

/-- The host has exited with success. -/
def hostSucceeded : Except String HostOutput → Bool
  | .ok out => out.success
  | .error _ => false

/-- The call gets as far as the host, and the host succeeds. -/
def OpenVmCall.Proves (outputDir : String) (c : OpenVmCall C) (dir : OutputDir) : Prop :=
  ∃ found answer left, c.hostRun outputDir dir = some (found, answer, left) ∧
    hostSucceeded answer = true

/-- What is assumed of the host binary: it writes the file named by `--proof` only when it
succeeds, and no other proof file and none of the artifacts. -/
structure OpenVmCall.HostContract (outputDir : String) (c : OpenVmCall C) : Prop where
  artifacts : ∀ dir found answer left, c.hostRun outputDir dir = some (found, answer, left) →
    artifactFiles left = artifactFiles found
  proofs : ∀ dir found answer left, c.hostRun outputDir dir = some (found, answer, left) →
    ∀ level, (proofName level ≠ proofName c.level ∨ hostSucceeded answer = false) →
      left (proofName level) = found (proofName level)

/-! ## Directories with provenance -/

/-- A directory, with the artifacts that each proof file in it was produced from. -/
structure ProofDir where
  files : OutputDir
  origin : String → Option (List (Option Bytes))

/-- A call: the code changes the files, and a host that succeeds has produced its proof from the
artifacts it has found. -/
def ProofDir.call (outputDir : String) (d : ProofDir) (c : OpenVmCall C) : ProofDir where
  files := c.filesAfter outputDir d.files
  origin :=
    match c.hostRun outputDir d.files with
    | some (found, answer, _) =>
        if hostSucceeded answer then
          Function.update d.origin (proofName c.level) (some (artifactFiles found))
        else d.origin
    | none => d.origin

/-- **Every proof file belongs to the artifacts beside it.** -/
def ProofDir.Fresh (d : ProofDir) : Prop :=
  ∀ level, (d.files (proofName level)).isSome →
    d.origin (proofName level) = some (artifactFiles d.files)

/-! ## What the writes leave -/

/-- What a write leaves in its file. -/
def Env.leaves (env : Env C) (name : String) (contents : Bytes) : Option Bytes :=
  match env.writeError name with
  | none => some contents
  | some (_, left) => left

/-- The writes of `build_proof_artifacts` up to its first error, with what each leaves in its
file. -/
def OpenVmCall.writes (c : OpenVmCall C) : List (String × Option Bytes) :=
  if c.env.createDirError.isSome then []
  else ("program.lua", c.env.leaves "program.lua" (strBytes c.source)) ::
    if (c.env.writeError "program.lua").isSome then []
    else
      match C.programToJson c.program with
      | .error _ => []
      | .ok compiledJson =>
          ("compiled.json", c.env.leaves "compiled.json" (strBytes compiledJson)) ::
            if (c.env.writeError "compiled.json").isSome then []
            else
              match C.dryRunToJson
                (dryRunResult C c.program c.input c.output c.attestations) with
              | .error _ => []
              | .ok dryResultJson =>
                  [("dry_result.json", c.env.leaves "dry_result.json" (strBytes dryResultJson))]

/-- Files written one after another. -/
def writeAll (writes : List (String × Option Bytes)) (dir : OutputDir) : OutputDir :=
  writes.foldl (fun d w => Function.update d w.1 w.2) dir

theorem writeAll_of_not_mem {writes : List (String × Option Bytes)} {name : String}
    (h : name ∉ writes.map Prod.fst) (dir : OutputDir) : writeAll writes dir name = dir name := by
  induction writes generalizing dir with
  | nil => rfl
  | cons w writes ih =>
      rw [List.map_cons, List.mem_cons, not_or] at h
      calc writeAll (w :: writes) dir name
          = writeAll writes (Function.update dir w.1 w.2) name := rfl
        _ = Function.update dir w.1 w.2 name := ih h.2 _
        _ = dir name := Function.update_of_ne h.1 _ _

theorem writeAll_of_mem {writes : List (String × Option Bytes)}
    (hnodup : (writes.map Prod.fst).Nodup) {w : String × Option Bytes} (h : w ∈ writes)
    (dir : OutputDir) : writeAll writes dir w.1 = w.2 := by
  induction writes generalizing dir with
  | nil => cases h
  | cons w' writes ih =>
      rw [List.map_cons, List.nodup_cons] at hnodup
      rcases List.mem_cons.mp h with rfl | h
      · calc writeAll (w :: writes) dir w.1
            = writeAll writes (Function.update dir w.1 w.2) w.1 := rfl
          _ = Function.update dir w.1 w.2 w.1 := writeAll_of_not_mem hnodup.1 _
          _ = w.2 := Function.update_self _ _ _
      · exact ih hnodup.2 h _

/-! ## One call -/

theorem Env.createDirAll_of_none {env : Env C} (h : env.createDirError = none)
    (describe : String → String) (dir : OutputDir) :
    env.createDirAll describe dir = (.ok (), dir) := by
  rw [Env.createDirAll, h]
  rfl

theorem Env.createDirAll_of_some {env : Env C} {e : String} (h : env.createDirError = some e)
    (describe : String → String) (dir : OutputDir) :
    env.createDirAll describe dir = (.error (describe e), dir) := by
  rw [Env.createDirAll, h]
  rfl

theorem Env.write_of_none {env : Env C} {name : String} (h : env.writeError name = none)
    (contents : Bytes) (describe : String → String) (dir : OutputDir) :
    env.write name contents describe dir
      = (.ok (), Function.update dir name (env.leaves name contents)) := by
  rw [Env.write, Env.leaves, h]
  rfl

theorem Env.write_of_some {env : Env C} {name : String} {e : String × Option Bytes}
    (h : env.writeError name = some e)
    (contents : Bytes) (describe : String → String) (dir : OutputDir) :
    env.write name contents describe dir
      = (.error (describe e.1), Function.update dir name (env.leaves name contents)) := by
  rw [Env.write, Env.leaves, h]
  rfl

/-- **`build_proof_artifacts` leaves its writes behind**, up to the first error. -/
theorem buildProofArtifacts_files (outputDir : String) (c : OpenVmCall C) (dir : OutputDir) :
    (buildProofArtifacts C c.env c.program c.source c.input c.output c.attestations outputDir
      dir).2 = writeAll c.writes dir := by
  unfold buildProofArtifacts OpenVmCall.writes
  rcases hcreate : c.env.createDirError with - | e
  · rw [Fallible.bind_ok (Env.createDirAll_of_none hcreate _ _)]
    rcases hsource : c.env.writeError "program.lua" with - | e
    · rw [Fallible.bind_ok (Env.write_of_none hsource _ _ _)]
      rcases hprinted : C.programToJson c.program with e | compiledJson
      · rfl
      · rw [Fallible.bind_ok (Fallible.ofExcept_ok _ _ _)]
        rcases hcompiled : c.env.writeError "compiled.json" with - | e
        · rw [Fallible.bind_ok (Env.write_of_none hcompiled _ _ _)]
          rcases hserialized : C.dryRunToJson (dryRunResult C c.program c.input c.output
            c.attestations) with e | dryResultJson
          · rfl
          · rw [Fallible.bind_ok (Fallible.ofExcept_ok _ _ _)]
            rcases hdry : c.env.writeError "dry_result.json" with - | e
            · rw [Fallible.bind_ok (Env.write_of_none hdry _ _ _)]
              rfl
            · rw [Fallible.bind_error (Env.write_of_some hdry _ _ _)]
              rfl
        · rw [Fallible.bind_error (Env.write_of_some hcompiled _ _ _)]
          rfl
    · rw [Fallible.bind_error (Env.write_of_some hsource _ _ _)]
      rfl
  · rw [Fallible.bind_error (Env.createDirAll_of_some hcreate _ _)]
    rfl

theorem Env.readOnly_readToString (env : Env C) (name : String) (describe : String → String) :
    Fallible.ReadOnly (env.readToString name describe) := by
  intro dir
  unfold Env.readToString
  split
  · rfl
  · split
    · rfl
    · split <;> rfl

theorem Env.command_files (env : Env C) (program : String) (args : List String)
    (describe : String → String) (dir : OutputDir) :
    (env.command program args describe dir).2 = (env.runCommand program args dir).2 := by
  unfold Env.command
  split
  · next heq => rw [heq]
  · next heq => rw [heq]

theorem readOnly_readGuestInput (env : Env C) (input : C.Value) (artifacts : ProveArtifacts)
    (opts : OpenVmOptions) : Fallible.ReadOnly (readGuestInput C env input artifacts opts) := by
  unfold readGuestInput
  apply Fallible.ReadOnly.bind (env.readOnly_readToString _ _)
  intro dryJson
  apply Fallible.ReadOnly.bind (Fallible.readOnly_ofExcept _ _)
  intro dry
  apply Fallible.ReadOnly.bind (env.readOnly_readToString _ _)
  intro compiledJson
  apply Fallible.ReadOnly.bind (Fallible.readOnly_ofExcept _ _)
  intro compiled
  split
  · exact Fallible.readOnly_pure _
  · apply Fallible.ReadOnly.bind (Fallible.readOnly_ofExcept _ _)
    intro policy
    exact Fallible.readOnly_pure _

namespace OpenVmCall

variable {outputDir : String} {c : OpenVmCall C} {dir found left : OutputDir}
  {answer : Except String HostOutput}

/-- The host finds what the writes have left. -/
theorem hostRun_found (h : c.hostRun outputDir dir = some (found, answer, left)) :
    found = writeAll c.writes dir := by
  have hfiles := buildProofArtifacts_files outputDir c dir
  unfold hostRun at h
  split at h
  · cases h
  · next artifacts found' hbuild =>
    rw [hbuild] at hfiles
    have hsame : found' = found := congrArg Prod.fst (Option.some.inj h)
    rw [← hsame]
    exact hfiles

/-- **What a call leaves**: what the host has left, or what the writes have left if they failed.
Everything after the host only reads. -/
theorem filesAfter_eq : c.filesAfter outputDir dir =
    match c.hostRun outputDir dir with
    | some (_, _, left) => left
    | none => writeAll c.writes dir := by
  unfold filesAfter buildProofArtifactsWithOpenvm
  rw [Fallible.bind_readOnly_state]
  · have hwritten := buildProofArtifacts_files outputDir c dir
    unfold proveAndReadBack hostRun
    rcases hbuild : buildProofArtifacts C c.env c.program c.source c.input c.output c.attestations
      outputDir dir with ⟨e | artifacts, found⟩
    · rw [hbuild] at hwritten
      rw [show (c.opts outputDir).outputDir = outputDir from rfl, Fallible.bind_error hbuild]
      exact hwritten
    · rw [show (c.opts outputDir).outputDir = outputDir from rfl, Fallible.bind_ok hbuild]
      dsimp only
      rw [Fallible.bind_readOnly_state, Env.command_files]
      intro out
      split
      · exact Fallible.readOnly_fail _
      · exact (readOnly_readGuestInput c.env c.input artifacts _).bind
          fun _ => Fallible.readOnly_pure _
  · intro r
    exact (Fallible.readOnly_ofExcept _ _).bind fun _ => Fallible.readOnly_pure _

end OpenVmCall

/-! ## Names -/

/-- No proof file has an artifact's name. -/
theorem proofName_not_mem (level : String) : proofName level ∉ artifactNames := by
  have hhead : (proofName level).toList.head? = some 'o' := by
    rw [proofName, String.toList_append, String.toList_append]
    rfl
  have hothers : ∀ name ∈ artifactNames, name.toList.head? ≠ some 'o' := by decide
  intro hmem
  exact hothers _ hmem hhead

theorem OpenVmCall.writes_names (c : OpenVmCall C) : c.writes.map Prod.fst <+: artifactNames := by
  unfold OpenVmCall.writes artifactNames
  split
  · exact List.nil_prefix
  · split
    · exact ⟨["compiled.json", "dry_result.json"], rfl⟩
    · split
      · exact ⟨["compiled.json", "dry_result.json"], rfl⟩
      · split
        · exact ⟨["dry_result.json"], rfl⟩
        · split
          · exact ⟨["dry_result.json"], rfl⟩
          · exact ⟨[], rfl⟩

/-- The artifacts are the same after the writes exactly when each write leaves what was there. -/
theorem artifactFiles_writeAll_iff (c : OpenVmCall C) (dir : OutputDir) :
    artifactFiles (writeAll c.writes dir) = artifactFiles dir ↔
      ∀ w ∈ c.writes, dir w.1 = w.2 := by
  have hnames := c.writes_names
  have hnodup : (c.writes.map Prod.fst).Nodup :=
    hnames.sublist.nodup (by decide)
  unfold artifactFiles
  rw [List.map_inj_left]
  constructor
  · intro hsame w hw
    have hmem : w.1 ∈ artifactNames := hnames.subset (List.mem_map_of_mem hw)
    rw [← hsame w.1 hmem]
    exact writeAll_of_mem hnodup hw dir
  · intro hkeeps name hname
    by_cases hwritten : name ∈ c.writes.map Prod.fst
    · rcases List.mem_map.mp hwritten with ⟨w, hw, rfl⟩
      rw [writeAll_of_mem hnodup hw, hkeeps w hw]
    · exact writeAll_of_not_mem hwritten dir

theorem writeAll_proofName (c : OpenVmCall C) (level : String) (dir : OutputDir) :
    writeAll c.writes dir (proofName level) = dir (proofName level) := by
  apply writeAll_of_not_mem
  intro hmem
  exact proofName_not_mem level (c.writes_names.subset hmem)

/-! ## The invariant -/

/-- The condition on a call: it leaves the artifacts as they are, or there is no proof file in the
directory but one that it goes on to replace. -/
def OpenVmCall.Safe (outputDir : String) (c : OpenVmCall C) (dir : OutputDir) : Prop :=
  (∀ w ∈ c.writes, dir w.1 = w.2) ∨
    ∀ level, (dir (proofName level)).isSome →
      proofName level = proofName c.level ∧ c.Proves outputDir dir

namespace OpenVmCall

variable {outputDir : String} {c : OpenVmCall C}

/-- The artifacts after a call are those that it has written. -/
theorem artifactFiles_filesAfter (hhost : c.HostContract outputDir) (dir : OutputDir) :
    artifactFiles (c.filesAfter outputDir dir) = artifactFiles (writeAll c.writes dir) := by
  rw [filesAfter_eq]
  rcases hrun : c.hostRun outputDir dir with - | ⟨found, answer, left⟩
  · rfl
  · calc artifactFiles left = artifactFiles found := hhost.artifacts dir found answer left hrun
      _ = artifactFiles (writeAll c.writes dir) := by rw [hostRun_found hrun]

/-- A call changes no proof file but its own, and that only when it proves. -/
theorem filesAfter_proofName (hhost : c.HostContract outputDir) {dir : OutputDir} {level : String}
    (h : proofName level ≠ proofName c.level ∨ ¬c.Proves outputDir dir) :
    c.filesAfter outputDir dir (proofName level) = dir (proofName level) := by
  rw [filesAfter_eq]
  rcases hrun : c.hostRun outputDir dir with - | ⟨found, answer, left⟩
  · exact writeAll_proofName c level dir
  · have hkept : proofName level ≠ proofName c.level ∨ hostSucceeded answer = false := by
      rcases h with hother | hfails
      · exact Or.inl hother
      · cases hanswer : hostSucceeded answer with
        | false => exact Or.inr rfl
        | true => exact absurd ⟨found, answer, left, hrun, hanswer⟩ hfails
    calc left (proofName level) = found (proofName level) :=
          hhost.proofs dir found answer left hrun level hkept
      _ = dir (proofName level) := by rw [hostRun_found hrun, writeAll_proofName]

/-- The proof of a call that proves comes from what it has written. -/
theorem origin_of_proves {d : ProofDir} (h : c.Proves outputDir d.files) :
    (d.call outputDir c).origin (proofName c.level)
      = some (artifactFiles (writeAll c.writes d.files)) := by
  rcases h with ⟨found, answer, left, hrun, hanswer⟩
  unfold ProofDir.call
  simp only [hrun, hanswer, if_true, Function.update_self, hostRun_found hrun]

theorem origin_of_not {d : ProofDir} {level : String}
    (h : proofName level ≠ proofName c.level ∨ ¬c.Proves outputDir d.files) :
    (d.call outputDir c).origin (proofName level) = d.origin (proofName level) := by
  unfold ProofDir.call
  rcases hrun : c.hostRun outputDir d.files with - | ⟨found, answer, left⟩
  · rfl
  · cases hanswer : hostSucceeded answer with
    | false => simp only [hanswer, Bool.false_eq_true, if_false]
    | true =>
        rcases h with hother | hfails
        · simp only [hanswer, if_true]
          exact Function.update_of_ne hother _ _
        · exact absurd ⟨found, answer, left, hrun, hanswer⟩ hfails

/-- **One call keeps the invariant exactly when it is safe.** -/
theorem fresh_call_iff (hhost : c.HostContract outputDir) {d : ProofDir} (hd : d.Fresh) :
    (d.call outputDir c).Fresh ↔ c.Safe outputDir d.files := by
  have hafter : artifactFiles (d.call outputDir c).files
      = artifactFiles (writeAll c.writes d.files) := artifactFiles_filesAfter hhost d.files
  constructor
  · intro hfresh
    by_cases hkeeps : ∀ w ∈ c.writes, d.files w.1 = w.2
    · exact Or.inl hkeeps
    · refine Or.inr ?_
      intro level hpresent
      -- a proof that stays would stand beside other artifacts than its own
      by_contra hstays
      have hnot : proofName level ≠ proofName c.level ∨ ¬c.Proves outputDir d.files :=
        not_and_or.mp hstays
      have hsame : (d.call outputDir c).files (proofName level) = d.files (proofName level) :=
        filesAfter_proofName hhost hnot
      have horigin := hfresh level (by rw [hsame]; exact hpresent)
      rw [origin_of_not hnot, hd level hpresent, hafter, Option.some_inj] at horigin
      exact hkeeps ((artifactFiles_writeAll_iff c d.files).mp horigin.symm)
  · intro hsafe level hpresent
    by_cases hown : proofName level = proofName c.level ∧ c.Proves outputDir d.files
    · rw [hown.1, origin_of_proves hown.2, hafter]
    · have hnot : proofName level ≠ proofName c.level ∨ ¬c.Proves outputDir d.files :=
        not_and_or.mp hown
      have hsame : (d.call outputDir c).files (proofName level) = d.files (proofName level) :=
        filesAfter_proofName hhost hnot
      rw [hsame] at hpresent
      rcases hsafe with hkeeps | hreplaced
      · rw [origin_of_not hnot, hd level hpresent, hafter,
          (artifactFiles_writeAll_iff c d.files).mpr hkeeps]
      · exact absurd (hreplaced level hpresent) hown

end OpenVmCall

/-- **When every proof file belongs to the artifacts beside it**, after every call of a sequence on
one directory: exactly when every call is safe where it comes. -/
theorem proof_files_belong_iff (outputDir : String) (d : ProofDir) (hd : d.Fresh)
    (calls : List (OpenVmCall C)) (hhost : ∀ c ∈ calls, c.HostContract outputDir) :
    (∀ before after, calls = before ++ after →
        (before.foldl (ProofDir.call outputDir) d).Fresh) ↔
      ∀ before c after, calls = before ++ c :: after →
        c.Safe outputDir (before.foldl (ProofDir.call outputDir) d).files := by
  have hstep : ∀ c ∈ calls, ∀ d : ProofDir, d.Fresh →
      ((d.call outputDir c).Fresh ↔ c.Safe outputDir d.files) := by
    intro c hc d hd
    exact OpenVmCall.fresh_call_iff (hhost c hc) hd
  exact invariant_iff_safe hstep hd

/-! ## Runs on an empty directory -/

def emptyDir : ProofDir := ⟨fun _ => none, fun _ => none⟩

theorem emptyDir_fresh : emptyDir.Fresh := by
  intro level hpresent
  cases hpresent

/-- The host binary, proving on one level or failing to. -/
def levelHost (level : String) (succeeds : Bool) (dir : OutputDir) :
    Except String HostOutput × OutputDir :=
  if succeeds then
    (.ok ⟨true, "exit status: 0", "Revealed digest: 00\nproof generated and verified\n", "", 9000⟩,
      Function.update (Function.update dir "openvm_input.json" (some [])) (proofName level)
        (some [1]))
  else (.ok ⟨false, "exit status: 1", "", "out of memory", 9000⟩, dir)

/-- A call for a `PlainProgram`. -/
def plainCall (level : String) (succeeds : Bool) (p : PlainProgram) (source : String) :
    OpenVmCall plainCrates where
  env := { quietEnv with runCommand := fun _ _ => levelHost level succeeds }
  program := p
  source := source
  input := ()
  output := p.output
  attestations := []
  level := level
  policySpec := none

theorem proofName_ne_input (level : String) : proofName level ≠ "openvm_input.json" := by
  have hdot : (proofName level).toList[6]? = some '.' := by
    rw [proofName, String.toList_append, String.toList_append]
    rfl
  intro h
  rw [h] at hdot
  exact absurd hdot (by decide)

theorem plainCall_host {level : String} {succeeds : Bool} {p : PlainProgram}
    {source outputDir : String} {dir found left : OutputDir} {answer : Except String HostOutput}
    (h : (plainCall level succeeds p source).hostRun outputDir dir = some (found, answer, left)) :
    (answer, left) = levelHost level succeeds found := by
  unfold OpenVmCall.hostRun at h
  split at h
  · cases h
  · rcases Prod.mk.inj (Option.some.inj h) with ⟨rfl, hrun⟩
    exact hrun.symm

theorem plainCall_hostContract (outputDir level : String) (succeeds : Bool) (p : PlainProgram)
    (source : String) : (plainCall level succeeds p source).HostContract outputDir where
  artifacts := by
    intro dir found answer left h
    have hhost := plainCall_host h
    cases succeeds with
    | false =>
        cases hhost
        rfl
    | true =>
        cases hhost
        unfold artifactFiles
        rw [List.map_inj_left]
        intro name hname
        have hproof : name ≠ proofName level := by
          rintro rfl
          exact proofName_not_mem level hname
        have hinput : name ≠ "openvm_input.json" := by
          rintro rfl
          exact absurd hname (by decide)
        rw [Function.update_of_ne hproof, Function.update_of_ne hinput]
  proofs := by
    intro dir found answer left h level' hkept
    have hhost := plainCall_host h
    cases succeeds with
    | false =>
        cases hhost
        rfl
    | true =>
        cases hhost
        rcases hkept with hother | hfails
        · have hne : proofName level' ≠ proofName level := hother
          rw [Function.update_of_ne hne, Function.update_of_ne (proofName_ne_input level')]
        · cases hfails

/-- One program, proven on both levels. -/
def bothLevels : List (OpenVmCall plainCrates) :=
  [plainCall "app" true addProgram "return 1 + 2", plainCall "stark" true addProgram "return 1 + 2"]

theorem proof_files_belong_iff_bothLevels :
    ((bothLevels.take 1).foldl (ProofDir.call "proof-output") emptyDir).Fresh ∧
      (bothLevels.foldl (ProofDir.call "proof-output") emptyDir).Fresh := by
  have hhost : ∀ c ∈ bothLevels, c.HostContract "proof-output" := by
    intro c hc
    rcases List.mem_cons.mp hc with rfl | hc
    · exact plainCall_hostContract _ _ _ _ _
    · rw [List.mem_singleton.mp hc]
      exact plainCall_hostContract _ _ _ _ _
  have hsafe : ∀ before c after, bothLevels = before ++ c :: after →
      c.Safe "proof-output" (before.foldl (ProofDir.call "proof-output") emptyDir).files := by
    intro before c after hsplit
    rcases before with - | ⟨c₁, - | ⟨c₂, rest⟩⟩
    · -- the directory is empty
      refine Or.inr ?_
      intro level hpresent
      cases hpresent
    · -- the artifacts of the second call are already there
      cases hsplit
      exact Or.inl (by decide +kernel)
    · have hlength := congrArg List.length hsplit
      simp [bothLevels] at hlength
  have hbelong :=
    (proof_files_belong_iff "proof-output" emptyDir emptyDir_fresh bothLevels hhost).mpr hsafe
  exact ⟨hbelong _ (bothLevels.drop 1) rfl, hbelong bothLevels [] (List.append_nil _).symm⟩

/-- A run that proves, then a run of another program that fails or proves on the other level: the
proof of the first one stays beside the artifacts of the second. -/
theorem stale_proof_left :
    ¬([plainCall "app" true addProgram "return 1 + 2",
        plainCall "app" false loopProgram "while true do end"].foldl
          (ProofDir.call "proof-output") emptyDir).Fresh ∧
      ¬([plainCall "app" true addProgram "return 1 + 2",
        plainCall "stark" true loopProgram "while true do end"].foldl
          (ProofDir.call "proof-output") emptyDir).Fresh := by
  constructor
  · intro hfresh
    exact absurd (hfresh "app" (by decide +kernel)) (by decide +kernel)
  · intro hfresh
    exact absurd (hfresh "app" (by decide +kernel)) (by decide +kernel)

end ProvenoOracle
