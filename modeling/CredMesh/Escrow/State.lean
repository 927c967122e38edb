import CredMesh.Foundation.AccountMap
import CredMesh.Foundation.FixedWidth
import CredMesh.Shared.Errors

/-!
# State of the escrow program

The accounts the escrow owns and its events. All accounts of a pool are derived from
seeds that start with the pool's key, so they are stored under the rest of their seeds: an advance
and its two permanent records under the agent and the receivable, a ledger under the agent.
-/

namespace CredMesh.Escrow

def protocolFeeBps : UInt16 := 1500
def bpsDenominator : UInt64 := 10000
def liquidationGraceSeconds : Int64 := 14 * 24 * 60 * 60
def virtualAssetsOffset : UInt64 := 1000000
def virtualSharesOffset : UInt64 := 1000000000
def maxLateDays : UInt32 := 365
def minAdvanceAtoms : UInt64 := 1000000
def agentWindowSeconds : Int64 := 24 * 60 * 60

structure FeeCurve where
  utilizationKinkBps : UInt16
  baseRateBps : UInt16
  kinkRateBps : UInt16
  maxRateBps : UInt16
  durationPerDayBps : UInt16
  riskPremiumBps : UInt16
  poolLossSurchargeBps : UInt16
  deriving DecidableEq

structure PendingParams where
  feeCurve : FeeCurve
  maxAdvancePctBps : UInt16
  maxAdvanceAbs : UInt64
  agentWindowCap : UInt64
  executeAfter : Int64
  deriving DecidableEq

structure Pool where
  bump : UInt8
  assetMint : Pubkey
  usdcVault : Pubkey
  shareMint : Pubkey
  treasuryAta : Pubkey
  governance : Pubkey
  totalAssets : UInt64
  totalShares : UInt64
  deployedAmount : UInt64
  accruedProtocolFees : UInt64
  feeCurve : FeeCurve
  maxAdvancePctBps : UInt16
  maxAdvanceAbs : UInt64
  agentWindowCap : UInt64
  timelockSeconds : Int64
  chainId : UInt64
  pendingParams : Option PendingParams
  deriving DecidableEq

inductive AdvanceState
  | issued
  | settled
  | liquidated
  deriving DecidableEq

structure Advance where
  bump : UInt8
  agent : Pubkey
  receivableId : Bytes 32
  principal : UInt64
  feeOwed : UInt64
  latePenaltyPerDay : UInt64
  issuedAt : Int64
  expiresAt : Int64
  attestor : Pubkey
  state : AdvanceState
  deriving DecidableEq

/-- Permanent record that a receivable was used. -/
structure ConsumedPayment where
  bump : UInt8
  nonce : Bytes 16
  agent : Pubkey
  createdAt : Int64
  deriving DecidableEq

/-- Permanent record of a default. -/
structure LiquidationTombstone where
  bump : UInt8
  agent : Pubkey
  principal : UInt64
  expiresAt : Int64
  liquidatedAt : Int64
  deriving DecidableEq

structure AgentIssuanceLedger where
  bump : UInt8
  agent : Pubkey
  pool : Pubkey
  windowStart : Int64
  issuedInWindow : UInt64
  livePrincipal : UInt64
  deriving DecidableEq

/-- The seeds of an advance, and of its `ConsumedPayment` and tombstone. -/
structure AdvanceSeeds where
  pool : Pubkey
  agent : Pubkey
  receivableId : Bytes 32
  deriving DecidableEq

structure LedgerSeeds where
  pool : Pubkey
  agent : Pubkey
  deriving DecidableEq

/-- What identifies an advance within its pool. -/
abbrev AdvanceKey := Pubkey × Bytes 32

def AdvanceSeeds.key (seeds : AdvanceSeeds) : AdvanceKey := (seeds.agent, seeds.receivableId)

/-- A pool with all the accounts derived from it. -/
structure PoolState where
  pool : Pool
  advances : AccountMap AdvanceKey Advance
  consumed : AccountMap AdvanceKey ConsumedPayment
  ledgers : AccountMap Pubkey AgentIssuanceLedger
  tombstones : AccountMap AdvanceKey LiquidationTombstone

inductive Event
  | poolInitialized (pool assetMint shareMint governance : Pubkey)
  | deposited (pool lp : Pubkey) (amount sharesMinted : UInt64)
  | withdrew (pool lp : Pubkey) (sharesBurned assetsReturned : UInt64)
  | advanceIssued (pool agent advance : Pubkey) (principal feeOwed : UInt64) (expiresAt : Int64)
      (attestor : Pubkey)
  | advanceSettled (pool agent advance : Pubkey)
      (principal lpCut protocolCut agentNet : UInt64) (lateDays : UInt32)
  | advanceLiquidated (pool agent advance : Pubkey) (loss : UInt64)
  | paramsProposed (pool : Pubkey) (executeAfter : Int64)
  | paramsExecuted (pool : Pubkey) (maxAdvancePctBps : UInt16)
      (maxAdvanceAbs agentWindowCap : UInt64)
  | protocolFeesSkimmed (pool : Pubkey) (amount : UInt64) (recipient : Pubkey)
  deriving DecidableEq

/-- What a successful handler leaves behind. -/
structure Effect where
  state : PoolState
  tokens : Spl.TokenLedger
  event : Event

open Outcome

namespace FeeCurve

/-- The ordering and bounds that a stored curve must satisfy. -/
def validate (curve : FeeCurve) : Except Error Unit := do
  require (curve.utilizationKinkBps.toUInt64 ≤ bpsDenominator) (.credmesh .invalidFeeCurve)
  require (curve.baseRateBps ≤ curve.kinkRateBps) (.credmesh .invalidFeeCurve)
  require (curve.kinkRateBps ≤ curve.maxRateBps) (.credmesh .invalidFeeCurve)
  require (curve.maxRateBps.toUInt64 ≤ bpsDenominator) (.credmesh .invalidFeeCurve)

end FeeCurve

end CredMesh.Escrow
