import CredMesh.Escrow.Liquidity
import CredMesh.Shared.CreditMessage

/-!
# Creating and governing a pool

A pool is created once per asset mint. Its parameters change through a proposal that waits for the
timelock, and protocol fees are paid out of the vault; both run the Squads gate against the
pool's governance vault.
-/

namespace CredMesh.Escrow

open Outcome Spl IxIntrospection

structure InitPool where
  deployer : Pubkey
  pool : Pubkey
  assetMint : Pubkey
  shareMint : Pubkey
  usdcVault : Pubkey
  deriving DecidableEq

structure InitPoolParams where
  feeCurve : FeeCurve
  maxAdvancePctBps : UInt16
  maxAdvanceAbs : UInt64
  timelockSeconds : Int64
  governance : Pubkey
  treasuryAta : Pubkey
  chainId : UInt64
  agentWindowCap : UInt64
  deriving DecidableEq

structure ProposeParams where
  cranker : Pubkey
  governance : Pubkey
  pool : Pubkey
  deriving DecidableEq

structure ExecuteParams where
  cranker : Pubkey
  pool : Pubkey
  deriving DecidableEq

structure SkimProtocolFees where
  cranker : Pubkey
  governance : Pubkey
  pool : Pubkey
  poolUsdcVault : Pubkey
  recipientAta : Pubkey
  usdcMint : Pubkey
  deriving DecidableEq

/-- The pool account that `init_pool` writes. -/
def initialPool (bump : UInt8) (accounts : InitPool) (params : InitPoolParams) : Pool where
  bump
  assetMint := accounts.assetMint
  usdcVault := accounts.usdcVault
  shareMint := accounts.shareMint
  treasuryAta := params.treasuryAta
  governance := params.governance
  totalAssets := 0
  totalShares := 0
  deployedAmount := 0
  accruedProtocolFees := 0
  feeCurve := params.feeCurve
  maxAdvancePctBps := params.maxAdvancePctBps
  maxAdvanceAbs := params.maxAdvanceAbs
  agentWindowCap := params.agentWindowCap
  timelockSeconds := params.timelockSeconds
  chainId := params.chainId
  pendingParams := none

def initPool (rt : Runtime) (accounts : InitPool) (params : InitPoolParams) (t : TokenLedger) :
    Except Error Effect := do
  let (address, bump) := rt.poolPda accounts.assetMint
  require (accounts.pool = address) (.anchor .constraintSeeds)
  let _ ← mintAccount t accounts.assetMint
  let t ← (initializeMint accounts.shareMint accounts.pool (some accounts.pool) 6 t).mapError .token
  let t ← (initializeAccount accounts.usdcVault accounts.assetMint accounts.pool t).mapError .token
  require (params.maxAdvancePctBps.toUInt64 ≤ bpsDenominator) (.credmesh .advanceExceedsCap)
  require (0 ≤ params.timelockSeconds) (.credmesh .mathOverflow)
  require (params.chainId = CreditMessage.chainIdMainnet ∨
    params.chainId = CreditMessage.chainIdDevnet) (.credmesh .invalidChainId)
  params.feeCurve.validate
  pure {
    state := {
      pool := initialPool bump accounts params
      advances := ∅
      consumed := ∅
      ledgers := ∅
      tombstones := ∅ }
    tokens := t
    event := .poolInitialized accounts.pool accounts.assetMint accounts.shareMint
      params.governance }

/-- The constraint on the `governance` account of the two gated instructions. -/
def requireGovernance (governance : Pubkey) (pool : Pool) : Except Error Unit :=
  require (governance = pool.governance) (.credmesh .governanceRequired)

/-- The Squads gate of their handlers. -/
def requireGovernanceCpi (env : Env) (pool : Pool) : Except Error Unit :=
  (requireSquadsGovernanceCpi env.sysvar pool.governance).mapError fun _ ↦
    .credmesh .governanceRequired

def proposeParams (env : Env) (accounts : ProposeParams) (params : PendingParams)
    (s : PoolState) (t : TokenLedger) : Except Error Effect := do
  requireGovernance accounts.governance s.pool
  requireGovernanceCpi env s.pool
  params.feeCurve.validate
  let executeAfter ← okOr (env.now.checkedAdd s.pool.timelockSeconds) (.credmesh .mathOverflow)
  pure {
    state := { s with pool := { s.pool with pendingParams := some { params with executeAfter } } }
    tokens := t
    event := .paramsProposed accounts.pool executeAfter }

def executeParams (env : Env) (accounts : ExecuteParams) (s : PoolState) (t : TokenLedger) :
    Except Error Effect := do
  let pending ← okOr s.pool.pendingParams (.credmesh .noPendingParams)
  require (pending.executeAfter ≤ env.now) (.credmesh .pendingParamsNotReady)
  pure {
    state := { s with pool := { s.pool with
      feeCurve := pending.feeCurve
      maxAdvancePctBps := pending.maxAdvancePctBps
      maxAdvanceAbs := pending.maxAdvanceAbs
      agentWindowCap := pending.agentWindowCap
      pendingParams := none } }
    tokens := t
    event := .paramsExecuted accounts.pool pending.maxAdvancePctBps pending.maxAdvanceAbs
      pending.agentWindowCap }

def skimProtocolFees (env : Env) (accounts : SkimProtocolFees) (amount : UInt64) (s : PoolState)
    (t : TokenLedger) : Except Error Effect := do
  let _ ← tokenAccount t accounts.poolUsdcVault
  let _ ← tokenAccount t accounts.recipientAta
  let usdcMint ← mintAccount t accounts.usdcMint
  requireGovernance accounts.governance s.pool
  requireAddress accounts.poolUsdcVault s.pool.usdcVault
  requireAddress accounts.recipientAta s.pool.treasuryAta
  requireAddress accounts.usdcMint s.pool.assetMint
  requireGovernanceCpi env s.pool
  require (0 < amount) (.credmesh .mathOverflow)
  require (amount ≤ s.pool.accruedProtocolFees) (.credmesh .mathOverflow)
  let t ← (transferChecked accounts.poolUsdcVault accounts.usdcMint accounts.recipientAta
    accounts.pool amount usdcMint.decimals t).mapError .token
  let accruedProtocolFees ← okOr (s.pool.accruedProtocolFees.checkedSub amount)
    (.credmesh .mathOverflow)
  pure {
    state := { s with pool := { s.pool with accruedProtocolFees } }
    tokens := t
    event := .protocolFeesSkimmed accounts.pool amount accounts.recipientAta }

/-! ## Effects -/

variable {rt : Runtime} {env : Env} {s : PoolState} {t : TokenLedger} {effect : Effect}

/-- A new pool has empty books and an empty vault. -/
theorem initPool_effect {accounts : InitPool} {params : InitPoolParams}
    (h : initPool rt accounts params t = .ok effect) :
    effect.state = ⟨initialPool (rt.poolPda accounts.assetMint).2 accounts params, ∅, ∅, ∅, ∅⟩ ∧
    accounts.pool = (rt.poolPda accounts.assetMint).1 ∧
    t.accounts.lookup accounts.usdcVault = none ∧ t.mints.lookup accounts.shareMint = none ∧
    effect.tokens.accounts.lookup accounts.usdcVault =
      some (.opened accounts.assetMint accounts.pool) ∧
    effect.tokens.mints.lookup accounts.shareMint =
      some ⟨some accounts.pool, 0, 6, some accounts.pool⟩ ∧
    Flow t effect.tokens 0 0 0 0 := by
  simp only [initPool, mintAccount, bind_eq_ok, okOr_eq_ok, require_eq_ok, mapError_eq_ok,
    pure_eq_ok] at h
  obtain ⟨-, hpool, -, -, t₁, hmint, t₂, haccount, -, -, -, -, -, -, -, -, rfl⟩ := h
  obtain ⟨hfreshMint, hmintFound, hflow₁⟩ := initializeMint_flow hmint
  obtain ⟨hfreshAccount, haccountFound, hflow₂⟩ := initializeAccount_flow haccount
  have hflow := hflow₁.trans hflow₂
  have hsame : t₁.accounts = t.accounts := by
    simp only [initializeMint, bind_eq_ok, require_eq_ok, pure_eq_ok] at hmint
    obtain ⟨-, -, -, -, rfl⟩ := hmint
    rfl
  have hkept : t₂.mints = t₁.mints := by
    simp only [initializeAccount, bind_eq_ok, require_eq_ok, pure_eq_ok] at haccount
    obtain ⟨-, -, -, -, _, -, rfl⟩ := haccount
    rfl
  rw [hsame] at hfreshAccount
  rw [← hkept] at hmintFound
  rw [add_zero] at hflow
  exact ⟨rfl, hpool, hfreshAccount, hfreshMint, haccountFound, hmintFound, hflow⟩

/-- The pool holds its vault alone, and issues its shares alone. -/
theorem initPool_alone {accounts : InitPool} {params : InitPoolParams} (hminted : Minted t)
    (h : initPool rt accounts params t = .ok effect) :
    effect.tokens.HeldAlone accounts.usdcVault accounts.assetMint accounts.pool ∧
    effect.tokens.IssuedAlone accounts.shareMint accounts.pool := by
  obtain ⟨-, -, -, hfresh, hvault, hshare, hflow⟩ := initPool_effect h
  refine ⟨⟨_, hvault, rfl, rfl, rfl, rfl⟩, ⟨⟨_, hshare, rfl, rfl⟩, ?_⟩⟩
  intro address account' hfound' hmint
  cases hfound : t.accounts.lookup address with
  | none => exact (hflow.persists.opened address account' hfound hfound').1
  | some account =>
      -- an older account is of an older mint
      obtain ⟨_, hsame, hkeeps⟩ := hflow.persists.kept address account hfound
      obtain rfl := Option.some.inj (hfound'.symm.trans hsame)
      obtain ⟨mintState, hold⟩ := hminted address account hfound
      rw [← hkeeps.mint, hmint, hfresh] at hold
      cases hold

/-- The asset mint is there before the pool, and the share mint is not. -/
theorem initPool_mints_ne {accounts : InitPool} {params : InitPoolParams}
    (h : initPool rt accounts params t = .ok effect) :
    effect.state.pool.assetMint ≠ effect.state.pool.shareMint := by
  obtain ⟨hstate, -, -, hfresh, -⟩ := initPool_effect h
  simp only [initPool, mintAccount, bind_eq_ok, okOr_eq_ok] at h
  obtain ⟨-, -, _, hfound, -⟩ := h
  rw [hstate]
  rintro (hsame : accounts.assetMint = accounts.shareMint)
  rw [hsame, hfresh] at hfound
  cases hfound

theorem requireGovernance_eq_ok {governance : Pubkey} {pool : Pool} {u : Unit} :
    requireGovernance governance pool = .ok u ↔ governance = pool.governance :=
  require_eq_ok

theorem requireGovernanceCpi_eq_ok {pool : Pool} {u : Unit} :
    requireGovernanceCpi env pool = .ok u ↔
      requireSquadsGovernanceCpi env.sysvar pool.governance = .ok () :=
  mapError_eq_ok

theorem proposeParams_effect {accounts : ProposeParams} {params : PendingParams}
    (h : proposeParams env accounts params s t = .ok effect) :
    requireSquadsGovernanceCpi env.sysvar s.pool.governance = .ok () ∧
    params.feeCurve.validate = .ok () ∧ effect.tokens = t ∧ ∃ executeAfter : Int64,
      executeAfter.toInt = env.now.toInt + s.pool.timelockSeconds.toInt ∧
      effect.state = { s with pool :=
        { s.pool with pendingParams := some { params with executeAfter } } } := by
  simp only [proposeParams, bind_eq_ok, okOr_eq_ok, requireGovernance_eq_ok,
    requireGovernanceCpi_eq_ok, pure_eq_ok, Int64.checkedAdd_eq_some] at h
  obtain ⟨-, -, -, hgate, ⟨⟩, hvalid, executeAfter, htime, rfl⟩ := h
  exact ⟨hgate, hvalid, rfl, executeAfter, htime, rfl⟩

theorem executeParams_effect {accounts : ExecuteParams}
    (h : executeParams env accounts s t = .ok effect) :
    effect.tokens = t ∧ ∃ pending, s.pool.pendingParams = some pending ∧
      pending.executeAfter ≤ env.now ∧
      effect.state = { s with pool := { s.pool with
        feeCurve := pending.feeCurve
        maxAdvancePctBps := pending.maxAdvancePctBps
        maxAdvanceAbs := pending.maxAdvanceAbs
        agentWindowCap := pending.agentWindowCap
        pendingParams := none } } := by
  simp only [executeParams, bind_eq_ok, okOr_eq_ok, require_eq_ok, pure_eq_ok] at h
  obtain ⟨pending, hpending, -, htime, rfl⟩ := h
  exact ⟨rfl, pending, hpending, htime, rfl⟩

/-- The account constraints of a skim, with the mint it reads. -/
structure SkimReady (accounts : SkimProtocolFees) (pool : Pool) (t : TokenLedger)
    (mint : Mint) : Prop where
  vault : accounts.poolUsdcVault = pool.usdcVault
  vaultFound : ∃ account, t.accounts.lookup accounts.poolUsdcVault = some account
  recipient : accounts.recipientAta = pool.treasuryAta
  recipientFound : ∃ account, t.accounts.lookup accounts.recipientAta = some account
  asset : accounts.usdcMint = pool.assetMint
  assetFound : t.mints.lookup accounts.usdcMint = some mint

/-- A skim that governance sends, of fees that have accrued. -/
structure Skims (env : Env) (accounts : SkimProtocolFees) (amount : UInt64)
    (s s' : PoolState) : Prop where
  governance : accounts.governance = s.pool.governance
  companioned : requireSquadsGovernanceCpi env.sysvar s.pool.governance = .ok ()
  positive : 0 < amount
  accrued : s'.pool.accruedProtocolFees.toNat + amount.toNat = s.pool.accruedProtocolFees.toNat
  state : s' = { s with pool := { s.pool with
    accruedProtocolFees := s'.pool.accruedProtocolFees } }

/-- A skim in full: what its accounts admit, what it writes, moves and emits. -/
theorem skimProtocolFees_eq_ok {accounts : SkimProtocolFees} {amount : UInt64} :
    skimProtocolFees env accounts amount s t = .ok effect ↔
      ∃ mint, SkimReady accounts s.pool t mint ∧ Skims env accounts amount s effect.state ∧
        transferChecked accounts.poolUsdcVault accounts.usdcMint accounts.recipientAta
          accounts.pool amount mint.decimals t = .ok effect.tokens ∧
        effect.event = .protocolFeesSkimmed accounts.pool amount accounts.recipientAta := by
  simp only [skimProtocolFees, requireAddress, tokenAccount, mintAccount, bind_eq_ok, okOr_eq_ok,
    require_eq_ok, requireGovernance_eq_ok, requireGovernanceCpi_eq_ok, mapError_eq_ok,
    pure_eq_ok, UInt64.checkedSub_eq_some]
  constructor
  · rintro ⟨vault, hvaultFound, recipient, hrecipientFound, mint, hmint, -, hgovernance, -, hvault,
      -, hrecipient, -, hasset, -, hgate, -, hpositive, -, -, t', htransfer, accrued, haccrued, rfl⟩
    exact ⟨mint, ⟨hvault, ⟨vault, hvaultFound⟩, hrecipient, ⟨recipient, hrecipientFound⟩, hasset,
      hmint⟩, ⟨hgovernance, hgate, hpositive, haccrued, rfl⟩, htransfer, rfl⟩
  · rintro ⟨mint, hready, hskims, htransfer, hevent⟩
    obtain ⟨vault, hvault⟩ := hready.vaultFound
    obtain ⟨recipient, hrecipient⟩ := hready.recipientFound
    have hbounded : amount ≤ s.pool.accruedProtocolFees := by
      rw [UInt64.le_iff_toNat_le, ← hskims.accrued]
      exact Nat.le_add_left _ _
    refine ⟨vault, hvault, recipient, hrecipient, mint, hready.assetFound, (), hskims.governance,
      (), hready.vault, (), hready.recipient, (), hready.asset, (), hskims.companioned, (),
      hskims.positive, (), hbounded, effect.tokens, htransfer,
      effect.state.pool.accruedProtocolFees, hskims.accrued, ?_⟩
    rw [← hskims.state, ← hevent]

/-- A skim pays accrued fees out of the vault and leaves the asset counters alone. -/
theorem skimProtocolFees_effect {accounts : SkimProtocolFees} {amount : UInt64}
    (h : skimProtocolFees env accounts amount s t = .ok effect) :
    requireSquadsGovernanceCpi env.sysvar s.pool.governance = .ok () ∧
    (∃ accruedProtocolFees : UInt64,
      accruedProtocolFees.toNat + amount.toNat = s.pool.accruedProtocolFees.toNat ∧
      effect.state = { s with pool := { s.pool with accruedProtocolFees } }) ∧
    (∃ owner, t.IsAccount s.pool.treasuryAta s.pool.assetMint owner) ∧
    Flow t effect.tokens (Pi.single s.pool.usdcVault amount.toNat)
      (Pi.single s.pool.treasuryAta amount.toNat) 0 0 := by
  obtain ⟨mint, hready, hskims, htransfer, -⟩ := skimProtocolFees_eq_ok.mp h
  have hflow := transferChecked_flow htransfer
  have hdestination := (transferChecked_ready htransfer).destination
  rw [hready.recipient, hready.asset] at hdestination
  rw [hready.vault, hready.recipient] at hflow
  exact ⟨hskims.companioned, ⟨_, hskims.accrued, hskims.state⟩, hdestination, hflow⟩

end CredMesh.Escrow
