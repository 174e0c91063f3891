import ProvenoOracle.Prove.ConcreteRun

/-! # Can the run be replayed?

The OpenVM backend rebuilds the run from its files and replays it. The rebuilt guest input has
the program, the input and the tape of the run (`BuiltGuest.guest_eq`), but always the default
limits, whatever limits the run had. So the replay is the run's own exactly when the run was
made under the default limits (`replayable_iff_default_config`), and it succeeds exactly when
the run happens to stay within them (`replay_succeeds_iff`).
-/

set_option autoImplicit false

namespace ProvenoOracle

/-! ## What is relied on -/

variable (C : ProvenoCrates)

/-- What serde prints, serde reads back. -/
structure ProvenoCrates.JsonRoundTrips : Prop where
  program : ∀ (p : C.Program) (j : String), C.programToJson p = .ok j → C.programFromJson j = .ok p
  dryRun : ∀ (d : C.DryRun) (j : String), C.dryRunToJson d = .ok j → C.dryRunFromJson j = .ok d

/-- The machine is deterministic: a run is settled by program, input, tape and limits, and a
replay fails exactly when the run exceeds the limits it is given. `inputs` are the public inputs
that belong to a run and a policy. -/
structure ProvenoCrates.ReplaysWithin
    (within : VmConfig → C.Program → C.Value → C.Tape → Prop)
    (inputs : C.Program → C.Value → C.Output → Option Bytes → PublicInputs) : Prop where
  live : ∀ (config : VmConfig) (host : C.Host) (program : C.Program) (input : C.Value)
    (output : C.Output), C.execute config host program input = .ok output →
      within config program input (C.tape output)
  replays : ∀ (config config' : VmConfig) (host : C.Host) (program : C.Program) (input : C.Value)
    (output : C.Output) (policy : Option Bytes),
      C.execute config host program input = .ok output →
      within config' program input (C.tape output) →
      C.replayPublicInputs ⟨program, input, C.tape output, config', [], policy⟩
        = .ok (output, inputs program input output policy)
  exceeds : ∀ (config : VmConfig) (program : C.Program) (input : C.Value) (tape : C.Tape)
    (policy : Option Bytes), ¬within config program input tape →
      ∃ e, C.replayPublicInputs ⟨program, input, tape, config, [], policy⟩ = .error e

variable {C}

/-- The host binary leaves the two files it is given as they are. -/
def Env.HostKeepsArtifacts (env : Env C) : Prop :=
  ∀ program args dir, (env.runCommand program args dir).2 "compiled.json" = dir "compiled.json" ∧
    (env.runCommand program args dir).2 "dry_result.json" = dir "dry_result.json"

/-! ## Runs and their guest inputs -/

/-- What was written is read back: the guest input is made of the program and the dry run that
the two files were printed from. -/
theorem guest_eq_of_files (hjson : C.JsonRoundTrips) {env : Env C} {input : C.Value}
    {artifacts : ProveArtifacts} {opts : OpenVmOptions} {guest : C.Guest} {dir dir' : OutputDir}
    (h : readGuestInput C env input artifacts opts dir = (.ok guest, dir'))
    {program : C.Program} {j : String} (hj : C.programToJson program = .ok j)
    (hcompiledFile : dir "compiled.json" = some (strBytes j))
    {dry : C.DryRun} {j' : String} (hj' : C.dryRunToJson dry = .ok j')
    (hdryFile : dir "dry_result.json" = some (strBytes j')) :
    guest = ⟨program, input, dry.oracleTape, C.defaultConfig, [], guest.policyCanonical⟩ := by
  obtain ⟨dryBytes, compiledBytes, dryJson, compiledJson, dry', compiled, hdryFile', hdryUtf8,
    hdry, hcompiledFile', hcompiledUtf8, hcompiled, hprogram, hinput, htape, hconfig,
    hattestations, -⟩ := readGuestInput_ok h
  -- first the bytes, then the text, then the JSON
  obtain rfl : strBytes j = compiledBytes :=
    Option.some.inj (hcompiledFile.symm.trans hcompiledFile')
  obtain rfl : strBytes j' = dryBytes := Option.some.inj (hdryFile.symm.trans hdryFile')
  rw [strFromUtf8_strBytes] at hcompiledUtf8 hdryUtf8
  obtain rfl := Option.some.inj hcompiledUtf8
  obtain rfl := Option.some.inj hdryUtf8
  have hcompiled' : compiled = program :=
    Except.ok.inj (hcompiled.symm.trans (hjson.program _ _ hj))
  have hdry' : dry' = dry := Except.ok.inj (hdry.symm.trans (hjson.dryRun _ _ hj'))
  rw [hcompiled'] at hprogram
  rw [hdry'] at htape
  calc guest = ⟨guest.program, guest.input, guest.oracleTape, guest.config,
        guest.attestations, guest.policyCanonical⟩ := rfl
    _ = ⟨program, input, dry.oracleTape, C.defaultConfig, [], guest.policyCanonical⟩ := by
        rw [hprogram, hinput, htape, hconfig, hattestations]

/-- A successful execution, with or without a policy and under any limits, together with the
guest input that the OpenVM backend has built from it. -/
structure BuiltGuest (C : ProvenoCrates) where
  env : Env C
  config : VmConfig
  policy : Option C.Policy
  program : C.Program
  source : String
  input : C.Value
  host : C.Host
  output : C.Output
  attestations : List Bytes
  opts : OpenVmOptions
  before : OutputDir
  after : OutputDir
  artifacts : ProveArtifacts
  hostOutput : HostOutput
  guest : C.Guest
  executed : executeUnder C program input config host policy = .ok output
  built : proveAndReadBack C env program source input output attestations opts before
    = (.ok (artifacts, hostOutput, guest), after)

namespace BuiltGuest

/-- The guest input carries the limits of the run, and its replay succeeds with the run's output
and public inputs. -/
def Replayable (inputs : C.Program → C.Value → C.Output → Option Bytes → PublicInputs)
    (r : BuiltGuest C) : Prop :=
  r.guest.config = r.config ∧
    C.replayPublicInputs r.guest
      = .ok (r.output, inputs r.program r.input r.output r.guest.policyCanonical)

/-- **The guest input**: the run's program, input and tape, and the default limits. -/
theorem guest_eq (hjson : C.JsonRoundTrips) (r : BuiltGuest C)
    (hhost : r.env.HostKeepsArtifacts) :
    r.guest = ⟨r.program, r.input, C.tape r.output, C.defaultConfig, [],
      r.guest.policyCanonical⟩ := by
  obtain ⟨dir₁, dir₂, bin, args, hbuild, hcommand, -, hread⟩ := proveAndReadBack_ok r.built
  obtain ⟨-, ⟨j, hj, hcompiledFile⟩, ⟨j', hj', hdryFile⟩, -⟩ := buildProofArtifacts_ok hbuild
  -- the host has not touched the two files
  have hkept : dir₂ "compiled.json" = dir₁ "compiled.json" ∧
      dir₂ "dry_result.json" = dir₁ "dry_result.json" := by
    have hkeeps := hhost bin args dir₁
    rw [hcommand] at hkeeps
    exact hkeeps
  exact guest_eq_of_files hjson hread hj (hkept.1.trans hcompiledFile) hj'
    (hkept.2.trans hdryFile)

end BuiltGuest

section Replay

variable {within : VmConfig → C.Program → C.Value → C.Tape → Prop}
  {inputs : C.Program → C.Value → C.Output → Option Bytes → PublicInputs}

/-- The replay succeeds, with the run's output and public inputs, when the run stays within the
default limits, and fails when it does not. -/
theorem replay_succeeds_iff (hjson : C.JsonRoundTrips) (hvm : C.ReplaysWithin within inputs)
    (r : BuiltGuest C) (hhost : r.env.HostKeepsArtifacts) :
    C.replayPublicInputs r.guest
        = .ok (r.output, inputs r.program r.input r.output r.guest.policyCanonical) ↔
      within C.defaultConfig r.program r.input (C.tape r.output) := by
  obtain ⟨host', hexec⟩ := executeUnder_ok r.executed
  have hguest := r.guest_eq hjson hhost
  constructor
  · -- beyond the default limits the replay fails
    intro hreplay
    by_contra hexceeds
    obtain ⟨e, he⟩ := hvm.exceeds C.defaultConfig r.program r.input (C.tape r.output)
      r.guest.policyCanonical hexceeds
    rw [← hguest, hreplay] at he
    cases he
  · intro hwithin
    have hreplay := hvm.replays r.config C.defaultConfig host' r.program r.input r.output
      r.guest.policyCanonical hexec hwithin
    rwa [← hguest] at hreplay

/-- **When a run can be replayed as it ran**: exactly when its limits are the default ones. -/
theorem replayable_iff_default_config (hjson : C.JsonRoundTrips)
    (hvm : C.ReplaysWithin within inputs) (r : BuiltGuest C)
    (hhost : r.env.HostKeepsArtifacts) :
    r.Replayable inputs ↔ r.config = C.defaultConfig := by
  have hdefault : r.guest.config = C.defaultConfig := by
    rw [r.guest_eq hjson hhost]
  constructor
  · rintro ⟨hconfig, -⟩
    exact hconfig.symm.trans hdefault
  · -- the run itself is the evidence that it stays within the default limits
    intro hconfig
    refine ⟨hdefault.trans hconfig.symm, ?_⟩
    obtain ⟨host', hexec⟩ := executeUnder_ok r.executed
    have hwithin := hvm.live r.config host' r.program r.input r.output hexec
    rw [hconfig] at hwithin
    exact (replay_succeeds_iff hjson hvm r hhost).mpr hwithin

end Replay

/-! ## Two runs -/

theorem parseKnown_printKnown {α : Type} [DecidableEq α] {known : List α} {text : α → String}
    (hinj : ∀ a ∈ known, ∀ b ∈ known, text a = text b → a = b) {a : α} {j : String}
    (h : printKnown known text a = .ok j) : parseKnown known text j = .ok a := by
  unfold printKnown at h
  split at h
  · next hmem =>
    obtain rfl := Except.ok.inj h
    unfold parseKnown
    cases hfind : known.find? fun b => text b = text a with
    | none => exact absurd (List.find?_eq_none.mp hfind a hmem) (by simp)
    | some b =>
        have hb : text b = text a := by simpa using List.find?_some hfind
        rw [hinj b (List.mem_of_find?_eq_some hfind) a hmem hb]
  · cases h

theorem plainCrates_jsonRoundTrips : plainCrates.JsonRoundTrips where
  program _ _ h := parseKnown_printKnown (by decide +kernel) h
  dryRun _ _ h := parseKnown_printKnown (by decide +kernel) h

theorem plainCrates_replaysWithin :
    plainCrates.ReplaysWithin (fun config (p : PlainProgram) _ _ => p.within config)
      fun (p : PlainProgram) _ _ policy => plainPublicInputs p (attachedHash policy) where
  live _ _ _ _ _ h := (plainExecute_ok h).1
  replays _ config' _ program _ _ policy h hwithin := by
    obtain ⟨-, rfl⟩ := plainExecute_ok h
    exact plainReplay_of_within (g := ⟨program, (), (), config', [], policy⟩) hwithin
  exceeds config program _ _ policy h :=
    ⟨"GasExhausted", plainReplay_of_not_within (g := ⟨program, (), (), config, [], policy⟩) h⟩

theorem quietEnv_hostKeepsArtifacts : quietEnv.HostKeepsArtifacts := by
  intro program args dir
  constructor
  · rfl
  · rfl

/-- A program, executed under the given limits and handed to the OpenVM backend. -/
def plainGuest (p : PlainProgram) (config : VmConfig)
    (hwithin : p.within config)
    (hbuilt : (proveAndReadBack plainCrates quietEnv p "" () p.output []
      ⟨"proof-output", "app", none⟩ fun _ => none).1.isOk = true) : BuiltGuest plainCrates where
  env := quietEnv
  config := config
  policy := none
  program := p
  source := ""
  input := ()
  host := ()
  output := p.output
  attestations := []
  opts := ⟨"proof-output", "app", none⟩
  before := fun _ => none
  after := (proveAndReadBack plainCrates quietEnv p "" () p.output []
    ⟨"proof-output", "app", none⟩ fun _ => none).2
  artifacts := (okValue _ hbuilt).1
  hostOutput := (okValue _ hbuilt).2.1
  guest := (okValue _ hbuilt).2.2
  executed := by
    have hexec : plainExecute config p = .ok p.output := if_pos hwithin
    show (plainExecute config p).mapError _ = _
    rw [hexec]
    rfl
  built := eq_okValue _ hbuilt

/-- `return 1 + 2` under the default limits. -/
def defaultRun : BuiltGuest plainCrates :=
  plainGuest addProgram plainCrates.defaultConfig (by decide) (by decide +kernel)

/-- The loop under `--gas-limit 1000000`. -/
def raisedGasRun : BuiltGuest plainCrates :=
  plainGuest loopProgram { plainCrates.defaultConfig with gasLimit := 1000000 } (by decide)
    (by decide +kernel)

theorem replayable_iff_default_config_defaultRun :
    defaultRun.Replayable (fun (p : PlainProgram) _ _ policy =>
        plainPublicInputs p (attachedHash policy)) ↔
      defaultRun.config = plainCrates.defaultConfig :=
  replayable_iff_default_config plainCrates_jsonRoundTrips plainCrates_replaysWithin defaultRun
    quietEnv_hostKeepsArtifacts

/-- With a raised gas limit the loop runs, and the guest input built from the run, which carries
the default limit, does not replay. -/
theorem raised_gas_not_replayable :
    raisedGasRun.config.gasLimit = 1000000 ∧ raisedGasRun.guest.config.gasLimit = 200000 ∧
      plainCrates.replayPublicInputs raisedGasRun.guest = .error "GasExhausted" ∧
      ¬raisedGasRun.Replayable (fun (p : PlainProgram) _ _ policy =>
        plainPublicInputs p (attachedHash policy)) := by
  have hguest := raisedGasRun.guest_eq plainCrates_jsonRoundTrips quietEnv_hostKeepsArtifacts
  have hfails : plainCrates.replayPublicInputs raisedGasRun.guest = .error "GasExhausted" := by
    rw [hguest]
    have hexceeds : ¬loopProgram.within plainCrates.defaultConfig := by decide
    exact plainReplay_of_not_within (g := ⟨loopProgram, (), (), plainCrates.defaultConfig, [],
      raisedGasRun.guest.policyCanonical⟩) hexceeds
  refine ⟨rfl, by rw [hguest]; rfl, hfails, ?_⟩
  rintro ⟨-, hreplay⟩
  rw [hfails] at hreplay
  cases hreplay

end ProvenoOracle
