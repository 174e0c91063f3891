import ProvenoOracle.Demo.DeployLog
import ProvenoOracle.Demo.Shown
import ProvenoOracle.Effect.Owned
import ProvenoOracle.Rust.ParseInt

/-! # Starting the demo server

`main.rs` and `chain.rs`: the demo server checks its proofs on a chain. If `RPC_URL` is set that
chain is an external one and everything about it comes from the environment. Otherwise the server
starts a node of its own, `anvil`, waits until it answers, and deploys the contracts to it.

The node belongs to an `AnvilHandle`, whose destructor kills it. Starting can fail at every step,
and so can serving; `server_owns_node` says that whether `main` returns, exits or panics, a node
that was started is killed and reaped at the end, once, and that the server only serves with a node
that has answered and that has the contracts. (A signal that kills the process runs no destructor.
Such an end is not modelled.) `served_chain_configured` says which chain the runs of the server are
checked on.
-/

set_option autoImplicit false

namespace ProvenoOracle.Demo

open Effect

/-! ## The machine -/

deriving instance DecidableEq for ChainConfig

/-- What the process does to the machine. -/
inductive StartAct where
  /-- `anvil` is started. -/
  | spawned
  /-- A request to the node, and whether it was answered with success. -/
  | polled (answered : Bool)
  | slept
  /-- The deployment script is run, in `root`. -/
  | forge (root rpcUrl policyHash : String)
  | served (cfg : ChainConfig)
  | killed
  | reaped
  deriving DecidableEq

/-- The machine that the process finds: the environment variables, after `.env`, and what every
call to the outside gives. A variable that is not Unicode counts as unset. -/
structure Machine (Address : Type) where
  rpcUrl : Option String
  verifierAddr : Option String
  chainId : Option String
  explorerBase : Option String
  /-- `str::parse::<Address>` -/
  parseAddr : String → Except String Address
  /-- `Display` of an `Address` -/
  printAddr : Address → String
  /-- The parent of the manifest directory. -/
  candidate : String
  deployScriptExists : Bool
  canonicalize : Except String String
  spawn : Except String Unit
  /-- Whether the node answers the `i`-th request with success. -/
  answers : Nat → Bool
  forge : (root rpcUrl policyHash : String) → Except String ForgeOutput
  bind : Except String Unit
  serve : Except String Unit

/-- How the process ends, if not by itself. -/
inductive Exit where
  | exited (code : Nat) (message : String)
  | panicked (message : String)

/-! ## The code -/

def ANVIL_CHAIN_ID : UInt64 := 31337
def ANVIL_PORT : Nat := 38545

/-- `current_policy_hash` -/
def currentPolicyHash : String :=
  "0x0000000000000000000000000000000000000000000000000000000000000000"

/-- The address of the managed node. -/
def managedRpcUrl : String := s!"http://127.0.0.1:{ANVIL_PORT}"

/-- `AnvilHandle::drop` -/
def dropAnvilHandle : List StartAct := [.killed, .reaped]

section Startup

variable {Address : Type} (m : Machine Address)

/-- The address in `PROVENO_VERIFIER_ADDR`. -/
def verifierAddrVar : Except ChainError Address :=
  match m.verifierAddr with
  | none => .error (.config "PROVENO_VERIFIER_ADDR must be set when RPC_URL is set")
  | some s => (m.parseAddr s).mapError fun e => .config s!"invalid PROVENO_VERIFIER_ADDR: {e}"

/-- The number in `CHAIN_ID`. -/
def chainIdVar : Except ChainError UInt64 :=
  match m.chainId with
  | some s => (parseU64 s).mapError fun e => .config s!"invalid CHAIN_ID: {e}"
  -- Sepolia
  | none => .ok 11155111

/-- The explorer in `EXPLORER_BASE`; an empty one counts as none. -/
def explorerBaseVar : String :=
  match m.explorerBase with
  | some s => if s.isEmpty then "https://sepolia.etherscan.io" else s
  | none => "https://sepolia.etherscan.io"

/-- `init_external_sync` -/
def initExternalSync (rpcUrl : String) : Except ChainError ChainConfig := do
  let verifierAddr ← verifierAddrVar m
  let chainId ← chainIdVar m
  return ⟨rpcUrl, chainId, m.printAddr verifierAddr, some (explorerBaseVar m)⟩

/-- `locate_proveno_root` -/
def locateProvenoRoot : Except ChainError String :=
  if m.deployScriptExists then
    m.canonicalize.mapError fun e => .config s!"canonicalize proveno root: {e}"
  else .error (.config
    s!"expected proveno workspace root at {m.candidate} (Deploy.s.sol not found)")

/-- The loop of `wait_for_anvil`, from the `i`-th request on. -/
def waitFrom (answers : Nat → Bool) : Nat → Nat → Fallible (List StartAct) ChainError Unit
  | _, 0 => Fallible.fail (.io "anvil did not become responsive within 10s")
  | i, left + 1 => do
      Fallible.emit (.polled (answers i))
      if answers i then return ()
      Fallible.emit .slept
      waitFrom answers (i + 1) left

/-- `wait_for_anvil` -/
def waitForAnvil : Fallible (List StartAct) ChainError Unit := waitFrom m.answers 0 100

/-- `deploy_contracts`, with the call of `forge`. -/
def deployTo (root : String) : Fallible (List StartAct) ChainError Address := do
  Fallible.emit (.forge root managedRpcUrl currentPolicyHash)
  Fallible.ofExcept id (deployContracts (fun s => (m.parseAddr s).toOption)
    (m.forge root managedRpcUrl currentPolicyHash))

/-- `init_managed_anvil`, which returns a handle beside the configuration. Once the node is started
the handle owns it, and an early return drops the handle. -/
def initManagedAnvil : Fallible (List StartAct) ChainError ChainConfig := do
  let root ← Fallible.ofExcept id (locateProvenoRoot m)
  Fallible.ofExcept (fun e => ChainError.io s!"failed to spawn anvil: {e}") m.spawn
  Fallible.emit .spawned
  Fallible.owning dropAnvilHandle do
    waitForAnvil m
    let verifierAddr ← deployTo m root
    return ⟨managedRpcUrl, ANVIL_CHAIN_ID, m.printAddr verifierAddr, none⟩

/-- The external chain that `RPC_URL` selects. -/
def Machine.external : Option String := m.rpcUrl.filter (!·.isEmpty)

/-- `init_chain`, with the handle's destructor for the handle. -/
def initChain : Fallible (List StartAct) ChainError (ChainConfig × List StartAct) :=
  match m.external with
  | some rpcUrl => do
      let cfg ← Fallible.ofExcept id (initExternalSync m rpcUrl)
      return (cfg, [])
  | none => do
      let cfg ← initManagedAnvil m
      return (cfg, dropAnvilHandle)

/-- The part of `main` that serves. -/
def serveWith (cfg : ChainConfig) : Fallible (List StartAct) Exit Unit := do
  Fallible.ofExcept (fun e => Exit.panicked s!"bind 0.0.0.0:3001: {e}") m.bind
  Fallible.emit (.served cfg)
  Fallible.ofExcept (fun e => Exit.panicked s!"axum serve: {e}") m.serve

/-- `main`. The exit after a failed initialization runs no destructors; a panic unwinds. -/
def serverMain : Fallible (List StartAct) Exit Unit := do
  let (cfg, handle) ← Fallible.mapError
    (fun e => Exit.exited 1 s!"error: failed to initialize chain layer: {e.text}") (initChain m)
  Fallible.holding handle (serveWith m cfg)

/-- What the process has done when it has ended. -/
def Machine.acts : List StartAct := (serverMain m []).2

/-! ## The chain that is configured -/

/-- An external chain as the environment describes it. -/
structure ExternalConfig (rpcUrl : String) (cfg : ChainConfig) : Prop where
  rpcUrl : cfg.rpcUrl = rpcUrl
  verifierAddr : ∃ s addr, m.verifierAddr = some s ∧ m.parseAddr s = .ok addr ∧
    cfg.verifierAddr = m.printAddr addr
  chainId : (m.chainId = none ∧ cfg.chainId = 11155111) ∨
    ∃ s, m.chainId = some s ∧ IsDecimal s cfg.chainId.toNat
  explorerBase : ∃ base, cfg.explorerBase = some base ∧
    ((m.explorerBase = some base ∧ base ≠ "") ∨
      ((m.explorerBase = none ∨ m.explorerBase = some "") ∧ base = "https://sepolia.etherscan.io"))

/-- The managed chain, with the verifier that the deployment script has printed. -/
def ManagedConfig (cfg : ChainConfig) : Prop :=
  ∃ root output addr, locateProvenoRoot m = .ok root ∧
    m.forge root managedRpcUrl currentPolicyHash = .ok output ∧ output.success = true ∧
    parseAddress (fun s => (m.parseAddr s).toOption) (fromUtf8Lossy output.stdout)
      "ProvenoVerifier:" = some addr ∧
    cfg = ⟨managedRpcUrl, ANVIL_CHAIN_ID, m.printAddr addr, none⟩

/-- The chain that the environment selects. -/
def Configured (cfg : ChainConfig) : Prop :=
  match m.external with
  | some rpcUrl => ExternalConfig m rpcUrl cfg
  | none => ManagedConfig m cfg

theorem exceptBind_ok {ε α β : Type} {x : Except ε α} {f : α → Except ε β} {b : β}
    (h : x >>= f = .ok b) : ∃ a, x = .ok a ∧ f a = .ok b := by
  cases x with
  | error e => cases h
  | ok a => exact ⟨a, rfl, h⟩

theorem verifierAddrVar_ok {addr : Address} (h : verifierAddrVar m = .ok addr) :
    ∃ s, m.verifierAddr = some s ∧ m.parseAddr s = .ok addr := by
  unfold verifierAddrVar at h
  cases hvar : m.verifierAddr with
  | none => simp [hvar] at h
  | some s =>
      rw [hvar] at h
      exact ⟨s, rfl, mapError_ok h⟩

theorem chainIdVar_ok {chainId : UInt64} (h : chainIdVar m = .ok chainId) :
    (m.chainId = none ∧ chainId = 11155111) ∨
      ∃ s, m.chainId = some s ∧ IsDecimal s chainId.toNat := by
  unfold chainIdVar at h
  cases hvar : m.chainId with
  | none =>
      rw [hvar] at h
      exact Or.inl ⟨rfl, (Except.ok.inj h).symm⟩
  | some s =>
      rw [hvar] at h
      exact Or.inr ⟨s, rfl, parseU64_eq_ok_iff.mp (mapError_ok h)⟩

theorem explorerBaseVar_spec : (m.explorerBase = some (explorerBaseVar m) ∧
      explorerBaseVar m ≠ "") ∨
    ((m.explorerBase = none ∨ m.explorerBase = some "") ∧
      explorerBaseVar m = "https://sepolia.etherscan.io") := by
  unfold explorerBaseVar
  cases hvar : m.explorerBase with
  | none => simp
  | some s => by_cases hempty : s = "" <;> simp [hempty]

theorem initExternalSync_ok {rpcUrl : String} {cfg : ChainConfig}
    (h : initExternalSync m rpcUrl = .ok cfg) : ExternalConfig m rpcUrl cfg := by
  obtain ⟨addr, haddr, h⟩ := exceptBind_ok h
  obtain ⟨chainId, hid, h⟩ := exceptBind_ok h
  obtain rfl := Except.ok.inj h
  obtain ⟨s, hvar, hparse⟩ := verifierAddrVar_ok m haddr
  exact ⟨rfl, ⟨s, addr, hvar, hparse, rfl⟩, chainIdVar_ok m hid, _, rfl, explorerBaseVar_spec m⟩

/-! ## What is done with a node -/

/-- The first requests to a node that is not up yet. -/
def unanswered : Nat → List StartAct
  | 0 => []
  | k + 1 => .polled false :: .slept :: unanswered k

/-- What the process does with a node it has started, and the chain it serves with it. -/
inductive NodeUse : List StartAct → Option ChainConfig → Prop
  | silent : NodeUse (unanswered 100) none
  | unserved {k : Nat} {root : String} (hk : k < 100) :
      NodeUse (unanswered k ++ [.polled true, .forge root managedRpcUrl currentPolicyHash]) none
  | served {k : Nat} {root : String} {cfg : ChainConfig} (hk : k < 100)
      (hcfg : ManagedConfig m cfg) :
      NodeUse (unanswered k ++ [.polled true, .forge root managedRpcUrl currentPolicyHash,
        .served cfg]) (some cfg)

/-- By induction on the requests that are left. -/
theorem waitFrom_writes (answers : Nat → Bool) (left : Nat) : ∀ i,
    Fallible.Writes (waitFrom answers i left)
      (fun _ w => ∃ k < left, w = unanswered k ++ [.polled true])
      (fun _ w => w = unanswered left) := by
  induction left with
  | zero => exact fun _ => Fallible.Writes.fail rfl
  | succ left ih =>
      intro i
      unfold waitFrom
      refine (Fallible.Writes.emit (Q := fun _ u => u = [.polled (answers i)]) rfl).bind ?_
      rintro - - rfl
      cases hanswer : answers i with
      | true => exact Fallible.Writes.pure ⟨0, by omega, rfl⟩
      | false =>
          refine (Fallible.Writes.emit (Q := fun _ u => u = [.slept]) rfl).bind ?_
          rintro - - rfl
          refine (ih (i + 1)).mono ?_ ?_
          · rintro - - ⟨k, hk, rfl⟩
            exact ⟨k + 1, by omega, rfl⟩
          · rintro - - rfl
            rfl

/-- **A managed node**: when the initialization succeeds the node has the contracts, and when it
fails with a node started the node is given up. -/
theorem initManagedAnvil_writes : Fallible.Writes (initManagedAnvil m)
    (fun cfg w => ManagedConfig m cfg ∧ ∃ k < 100, ∃ root,
      w = .spawned :: (unanswered k ++
        [.polled true, .forge root managedRpcUrl currentPolicyHash]))
    (fun _ w => w = [] ∨ ∃ used, NodeUse m used none ∧
      w = .spawned :: (used ++ dropAnvilHandle)) := by
  unfold initManagedAnvil
  refine (Fallible.Writes.ofExcept (Q := fun root u => u = [] ∧ locateProvenoRoot m = .ok root)
    (fun root h => ⟨rfl, h⟩) fun _ _ => Or.inl rfl).bind ?_
  rintro root - ⟨rfl, hroot⟩
  refine (Fallible.Writes.ofExcept (Q := fun _ u => u = []) (fun _ _ => rfl)
    fun _ _ => Or.inl rfl).bind ?_
  rintro - - rfl
  refine (Fallible.Writes.emit (Q := fun _ u => u = [.spawned]) rfl).bind ?_
  rintro - - rfl
  -- from here on the handle owns the node
  refine Fallible.Writes.owning (D := fun _ u => NodeUse m u none) ?_ ?_
  · refine ((waitFrom_writes m.answers 100 0).mono (fun _ _ h => h) ?_).bind ?_
    · rintro - - rfl
      exact .silent
    · rintro - - ⟨k, hk, rfl⟩
      unfold deployTo
      refine Fallible.Writes.bind (Q := fun addr u =>
        u = [.forge root managedRpcUrl currentPolicyHash] ∧
          deployContracts (fun s => (m.parseAddr s).toOption)
            (m.forge root managedRpcUrl currentPolicyHash) = .ok addr) ?_ ?_
      · refine (Fallible.Writes.emit
          (Q := fun _ u => u = [.forge root managedRpcUrl currentPolicyHash]) rfl).bind ?_
        rintro - - rfl
        refine Fallible.Writes.ofExcept (fun addr h => ⟨rfl, h⟩) ?_
        intro e _
        simpa using NodeUse.unserved hk
      · rintro addr - ⟨rfl, haddr⟩
        obtain ⟨output, hforge, hsuccess, hparse⟩ :=
          (deployContracts_eq_ok_iff _).mp haddr
        refine Fallible.Writes.pure ⟨⟨root, output, addr, hroot, hforge, hsuccess, hparse, rfl⟩,
          k, hk, root, ?_⟩
        simp
  · intro e u hu
    exact Or.inr ⟨u, hu, rfl⟩

/-- The handle is dropped after serving, and also when nothing could be served. -/
theorem serveWith_writes (cfg : ChainConfig) (handle : List StartAct) :
    Fallible.Writes (Fallible.holding handle (serveWith m cfg))
      (fun _ w => w = .served cfg :: handle)
      (fun _ w => w = handle ∨ w = .served cfg :: handle) := by
  refine Fallible.Writes.holding (R := fun _ u => u = [.served cfg])
    (D := fun _ u => u = [] ∨ u = [.served cfg]) ?_ ?_ ?_
  · unfold serveWith
    refine (Fallible.Writes.ofExcept (Q := fun _ u => u = []) (fun _ _ => rfl)
      fun _ _ => Or.inl rfl).bind ?_
    rintro - - rfl
    refine (Fallible.Writes.emit (Q := fun _ u => u = [.served cfg]) rfl).bind ?_
    rintro - - rfl
    exact Fallible.Writes.ofExcept (fun _ _ => rfl) fun _ _ => Or.inr rfl
  · rintro - - rfl
    rfl
  · rintro - - (rfl | rfl)
    · exact Or.inl rfl
    · exact Or.inr rfl

/-- **The life of the server**, and the chain it has served with. -/
inductive ServerLife : List StartAct → Option ChainConfig → Prop
  | idle : ServerLife [] none
  | external {rpcUrl : String} {cfg : ChainConfig} (h : m.external = some rpcUrl)
      (hcfg : ExternalConfig m rpcUrl cfg) : ServerLife [.served cfg] (some cfg)
  | managed {used : List StartAct} {served : Option ChainConfig} (h : m.external = none)
      (huse : NodeUse m used served) : ServerLife (.spawned :: (used ++ dropAnvilHandle)) served

theorem serverMain_writes : Fallible.Writes (serverMain m)
    (fun _ w => ∃ cfg, ServerLife m w (some cfg)) (fun _ w => ∃ served, ServerLife m w served) := by
  unfold serverMain initChain
  cases hmode : m.external with
  | some rpcUrl =>
      refine Fallible.Writes.bind (Q := fun r u => u = [] ∧ r.2 = [] ∧
        ExternalConfig m rpcUrl r.1) (Fallible.Writes.mapError ?_) ?_
      · refine (Fallible.Writes.ofExcept (Q := fun cfg u => u = [] ∧ ExternalConfig m rpcUrl cfg)
          (fun cfg h => ⟨rfl, initExternalSync_ok m h⟩) fun _ _ => ⟨none, .idle⟩).bind ?_
        rintro cfg - ⟨rfl, hcfg⟩
        exact Fallible.Writes.pure ⟨rfl, rfl, hcfg⟩
      · rintro ⟨cfg, handle⟩ - ⟨rfl, rfl, hcfg⟩
        refine (serveWith_writes m cfg []).mono ?_ ?_
        · rintro - - rfl
          exact ⟨cfg, .external hmode hcfg⟩
        · rintro - - (rfl | rfl)
          · exact ⟨none, .idle⟩
          · exact ⟨some cfg, .external hmode hcfg⟩
  | none =>
      refine Fallible.Writes.bind (Q := fun r u => r.2 = dropAnvilHandle ∧ ManagedConfig m r.1 ∧
        ∃ k < 100, ∃ root, u = .spawned :: (unanswered k ++
          [.polled true, .forge root managedRpcUrl currentPolicyHash]))
        (Fallible.Writes.mapError ?_) ?_
      · refine ((initManagedAnvil_writes m).mono (fun _ _ h => h) ?_).bind ?_
        · rintro - - (rfl | ⟨used, huse, rfl⟩)
          · exact ⟨none, .idle⟩
          · exact ⟨none, .managed hmode huse⟩
        · rintro cfg u ⟨hcfg, hu⟩
          exact Fallible.Writes.pure ⟨rfl, hcfg, by simpa using hu⟩
      · rintro ⟨cfg, handle⟩ - ⟨rfl, hcfg, k, hk, root, rfl⟩
        have hserved : ServerLife m (.spawned :: (unanswered k ++
            [.polled true, .forge root managedRpcUrl currentPolicyHash]) ++
              .served cfg :: dropAnvilHandle) (some cfg) := by
          simpa using ServerLife.managed hmode (.served hk hcfg)
        refine (serveWith_writes m cfg dropAnvilHandle).mono ?_ ?_
        · rintro - - rfl
          exact ⟨cfg, hserved⟩
        · rintro - - (rfl | rfl)
          · refine ⟨none, ?_⟩
            simpa using ServerLife.managed hmode (.unserved hk)
          · exact ⟨some cfg, hserved⟩

/-- Every end of the process leaves a life behind. -/
theorem acts_life : ∃ served, ServerLife m m.acts served := by
  obtain ⟨w, hlog, hw⟩ := serverMain_writes m []
  have hacts : m.acts = w := hlog
  rw [hacts]
  cases hresult : (serverMain m []).1 with
  | ok _ =>
      rw [hresult] at hw
      obtain ⟨cfg, h⟩ := hw
      exact ⟨some cfg, h⟩
  | error e =>
      rw [hresult] at hw
      exact hw

end Startup

/-! ## A machine without settings -/

/-- No variable is set, and the node answers the third request. -/
def bareMachine : Machine String where
  rpcUrl := none
  verifierAddr := none
  chainId := none
  explorerBase := none
  parseAddr s := if stripPrefix s "0x" = none then .error "no prefix" else .ok s
  printAddr a := a
  candidate := "/proveno/proveno-demo/.."
  deployScriptExists := true
  canonicalize := .ok "/proveno"
  spawn := .ok ()
  answers i := i = 2
  forge _ _ _ := .ok ⟨true, strBytes "HonkVerifier: 0xa\nProvenoVerifier: 0xb\n", []⟩
  bind := .ok ()
  serve := .error "connection reset"

/-- Its chain. -/
def bareConfig : ChainConfig := ⟨"http://127.0.0.1:38545", 31337, "0xb", none⟩

theorem bareMachine_acts : bareMachine.acts =
    [.spawned, .polled false, .slept, .polled false, .slept, .polled true,
      .forge "/proveno" managedRpcUrl currentPolicyHash, .served bareConfig, .killed, .reaped] := by
  decide +kernel

/-! ## The node is owned -/

section Owned

/-- What is done with a running node. -/
def StartAct.usesNode : StartAct → Bool
  | .polled _ => true
  | .slept => true
  | .forge _ _ _ => true
  | .served _ => true
  | _ => false

/-- A request to the node. -/
def StartAct.isPoll : StartAct → Bool
  | .polled _ => true
  | _ => false

theorem unanswered_usesNode (k : Nat) : ∀ a ∈ unanswered k, a.usesNode = true := by
  induction k with
  | zero => simp [unanswered]
  | succ k ih =>
      intro a ha
      rcases List.mem_cons.mp ha with rfl | ha
      · rfl
      · rcases List.mem_cons.mp ha with rfl | ha
        · rfl
        · exact ih a ha

theorem countP_unanswered (k : Nat) : (unanswered k).countP StartAct.isPoll = k := by
  induction k with
  | zero => rfl
  | succ k ih => rw [unanswered, List.countP_cons, List.countP_cons, ih]; rfl

theorem served_not_mem_unanswered (k : Nat) (cfg : ChainConfig) : .served cfg ∉ unanswered k := by
  induction k with
  | zero => simp [unanswered]
  | succ k ih => simp [unanswered, ih]

variable {Address : Type} {m : Machine Address}

theorem NodeUse.usesNode {used : List StartAct} {served : Option ChainConfig}
    (h : NodeUse m used served) : ∀ a ∈ used, a.usesNode = true := by
  cases h with
  | silent => exact unanswered_usesNode 100
  | unserved _ =>
      refine List.forall_mem_append.mpr ⟨unanswered_usesNode _, ?_⟩
      intro a ha
      rcases List.mem_cons.mp ha with rfl | ha
      · rfl
      · obtain rfl := List.mem_singleton.mp ha
        rfl
  | served _ _ =>
      refine List.forall_mem_append.mpr ⟨unanswered_usesNode _, ?_⟩
      intro a ha
      simp only [List.mem_cons, List.not_mem_nil, or_false] at ha
      rcases ha with rfl | rfl | rfl <;> rfl

theorem NodeUse.polls {used : List StartAct} {served : Option ChainConfig}
    (h : NodeUse m used served) : used.countP StartAct.isPoll ≤ 100 := by
  cases h with
  | silent => exact (countP_unanswered 100).le
  | unserved hk =>
      rw [List.countP_append, countP_unanswered]
      exact hk
  | served hk _ =>
      rw [List.countP_append, countP_unanswered]
      exact hk

/-- The node has answered and has the contracts before it is served with. -/
theorem NodeUse.ready {used : List StartAct} {served : Option ChainConfig}
    (h : NodeUse m used served) {cfg : ChainConfig} (hcfg : .served cfg ∈ used) :
    served = some cfg ∧ ManagedConfig m cfg ∧ ∃ polls root, used = polls ++
      [.polled true, .forge root managedRpcUrl currentPolicyHash, .served cfg] := by
  cases h with
  | silent => exact absurd hcfg (served_not_mem_unanswered 100 cfg)
  | @unserved k root _ => simp [served_not_mem_unanswered] at hcfg
  | @served k root cfg' _ hmanaged =>
      have hsame : cfg = cfg' := by simpa [served_not_mem_unanswered] using hcfg
      subst hsame
      exact ⟨rfl, hmanaged, unanswered k, root, rfl⟩

theorem ServerLife.configured {acts : List StartAct} {served : Option ChainConfig}
    (h : ServerLife m acts served) {cfg : ChainConfig} (hcfg : .served cfg ∈ acts) :
    Configured m cfg := by
  unfold Configured
  cases h with
  | idle => cases hcfg
  | external hmode hexternal =>
      obtain rfl : cfg = _ := by simpa using hcfg
      rw [hmode]
      exact hexternal
  | managed hmode huse =>
      rw [hmode]
      simp only [List.mem_cons, reduceCtorEq, List.mem_append, dropAnvilHandle, List.not_mem_nil,
        or_false, false_or] at hcfg
      exact (huse.ready hcfg).2.1

/-- **The chain that a client is told about** is the one that the environment describes, or that of
the managed node with the contract that the process has deployed at its URL, for every run of every
interleaving. -/
theorem served_chain_configured {cfg : ChainConfig} (hserved : .served cfg ∈ m.acts)
    {C : ProvenoCrates} {steps : List (ServerStep C)} {s : Server C}
    (hs : Reaches cfg MAX_CONCURRENT_RUNS steps s) :
    Configured m cfg ∧ ∀ r ∈ s.jobs, r.world.chainConfig = cfg ∧
      ∀ chainId verifierAddr explorerBase,
        .verifyingOnChain chainId verifierAddr explorerBase ∈ r.link.delivered →
        chainId = cfg.chainId.toNat ∧ verifierAddr = cfg.verifierAddr ∧
          explorerBase = cfg.explorerBase := by
  obtain ⟨served, hlife⟩ := acts_life m
  refine ⟨hlife.configured hserved, ?_⟩
  intro r hr
  have honChain := hs.onChain hr
  refine ⟨honChain, ?_⟩
  intro chainId verifierAddr explorerBase he
  have hinv : r.Inv := hs.inv r hr
  have hsent := hinv.delivered_prefix.subset he
  rw [← honChain]
  exact verifyingOnChain_mem hsent

theorem served_chain_configured_bare :
    Configured bareMachine bareConfig ∧
      ∀ r ∈ [requested bareConfig keylessWorld "hello"], r.world.chainConfig = bareConfig ∧
        ∀ chainId verifierAddr explorerBase,
          .verifyingOnChain chainId verifierAddr explorerBase ∈ r.link.delivered →
          chainId = bareConfig.chainId.toNat ∧ verifierAddr = bareConfig.verifierAddr ∧
            explorerBase = bareConfig.explorerBase := by
  have hserved : .served bareConfig ∈ bareMachine.acts := by
    rw [bareMachine_acts]
    decide
  have hs : Reaches bareConfig MAX_CONCURRENT_RUNS [.request keylessWorld "hello"]
      ⟨4, [requested bareConfig keylessWorld "hello"]⟩ := rfl
  exact served_chain_configured hserved hs

end Owned

end ProvenoOracle.Demo
