import CredMesh.Escrow.State
import CredMesh.Registry.AttestorRegistry
import CredMesh.Shared.CrossProgram

/-!
# The types of accounts

The Borsh codecs of the accounts of both programs, in the order of the fields. The escrow creates an
account with the room that its type can take at most, the registry with sizes that were added up by
hand.
-/

namespace CredMesh

open Escrow Registry

def keyCodec : Codec Pubkey := Codec.bytes 32

namespace Escrow

def FeeCurve.codec : Codec FeeCurve :=
  (Codec.u16.pair <| Codec.u16.pair <| Codec.u16.pair <| Codec.u16.pair <| Codec.u16.pair <|
    Codec.u16.pair Codec.u16).ofEquiv {
      toFun := fun (utilizationKinkBps, baseRateBps, kinkRateBps, maxRateBps, durationPerDayBps,
        riskPremiumBps, poolLossSurchargeBps) ↦ {
          utilizationKinkBps, baseRateBps, kinkRateBps, maxRateBps, durationPerDayBps,
          riskPremiumBps, poolLossSurchargeBps }
      invFun curve := (curve.utilizationKinkBps, curve.baseRateBps, curve.kinkRateBps,
        curve.maxRateBps, curve.durationPerDayBps, curve.riskPremiumBps,
        curve.poolLossSurchargeBps)
      left_inv _ := rfl
      right_inv _ := rfl }

def PendingParams.codec : Codec PendingParams :=
  (FeeCurve.codec.pair <| Codec.u16.pair <| Codec.u64.pair <| Codec.u64.pair
    Codec.i64).ofEquiv {
      toFun := fun (feeCurve, maxAdvancePctBps, maxAdvanceAbs, agentWindowCap, executeAfter) ↦ {
        feeCurve, maxAdvancePctBps, maxAdvanceAbs, agentWindowCap, executeAfter }
      invFun params := (params.feeCurve, params.maxAdvancePctBps, params.maxAdvanceAbs,
        params.agentWindowCap, params.executeAfter)
      left_inv _ := rfl
      right_inv _ := rfl }

def Pool.codec : Codec Pool :=
  (Codec.u8.pair <| keyCodec.pair <| keyCodec.pair <| keyCodec.pair <| keyCodec.pair <|
    keyCodec.pair <| Codec.u64.pair <| Codec.u64.pair <| Codec.u64.pair <| Codec.u64.pair <|
    FeeCurve.codec.pair <| Codec.u16.pair <| Codec.u64.pair <| Codec.u64.pair <|
    Codec.i64.pair <| Codec.u64.pair <| PendingParams.codec.optional).ofEquiv {
      toFun := fun (bump, assetMint, usdcVault, shareMint, treasuryAta, governance, totalAssets,
        totalShares, deployedAmount, accruedProtocolFees, feeCurve, maxAdvancePctBps,
        maxAdvanceAbs, agentWindowCap, timelockSeconds, chainId, pendingParams) ↦ {
          bump, assetMint, usdcVault, shareMint, treasuryAta, governance, totalAssets,
          totalShares, deployedAmount, accruedProtocolFees, feeCurve, maxAdvancePctBps,
          maxAdvanceAbs, agentWindowCap, timelockSeconds, chainId, pendingParams }
      invFun pool := (pool.bump, pool.assetMint, pool.usdcVault, pool.shareMint,
        pool.treasuryAta, pool.governance, pool.totalAssets, pool.totalShares,
        pool.deployedAmount, pool.accruedProtocolFees, pool.feeCurve, pool.maxAdvancePctBps,
        pool.maxAdvanceAbs, pool.agentWindowCap, pool.timelockSeconds, pool.chainId,
        pool.pendingParams)
      left_inv _ := rfl
      right_inv _ := rfl }

/-- The position of a variant is its byte. -/
def AdvanceState.variant : AdvanceState → UInt8
  | issued => 0
  | settled => 1
  | liquidated => 2

def AdvanceState.codec : Codec AdvanceState :=
  Codec.tags [.issued, .settled, .liquidated] (fun state ↦ (⟨[state.variant], rfl⟩ : Bytes 1))
    (fun state ↦ by cases state <;> decide)
    fun first second h ↦ by cases first <;> cases second <;> first | rfl | cases h

def Advance.codec : Codec Advance :=
  (Codec.u8.pair <| keyCodec.pair <| (Codec.bytes 32).pair <| Codec.u64.pair <|
    Codec.u64.pair <| Codec.u64.pair <| Codec.i64.pair <| Codec.i64.pair <| keyCodec.pair <|
    AdvanceState.codec).ofEquiv {
      toFun := fun (bump, agent, receivableId, principal, feeOwed, latePenaltyPerDay, issuedAt,
        expiresAt, attestor, state) ↦ {
          bump, agent, receivableId, principal, feeOwed, latePenaltyPerDay, issuedAt, expiresAt,
          attestor, state }
      invFun advance := (advance.bump, advance.agent, advance.receivableId, advance.principal,
        advance.feeOwed, advance.latePenaltyPerDay, advance.issuedAt, advance.expiresAt,
        advance.attestor, advance.state)
      left_inv _ := rfl
      right_inv _ := rfl }

def ConsumedPayment.codec : Codec ConsumedPayment :=
  (Codec.u8.pair <| (Codec.bytes 16).pair <| keyCodec.pair Codec.i64).ofEquiv {
      toFun := fun (bump, nonce, agent, createdAt) ↦ { bump, nonce, agent, createdAt }
      invFun consumed := (consumed.bump, consumed.nonce, consumed.agent, consumed.createdAt)
      left_inv _ := rfl
      right_inv _ := rfl }

def LiquidationTombstone.codec : Codec LiquidationTombstone :=
  (Codec.u8.pair <| keyCodec.pair <| Codec.u64.pair <| Codec.i64.pair Codec.i64).ofEquiv {
      toFun := fun (bump, agent, principal, expiresAt, liquidatedAt) ↦ {
        bump, agent, principal, expiresAt, liquidatedAt }
      invFun tombstone := (tombstone.bump, tombstone.agent, tombstone.principal,
        tombstone.expiresAt, tombstone.liquidatedAt)
      left_inv _ := rfl
      right_inv _ := rfl }

def AgentIssuanceLedger.codec : Codec AgentIssuanceLedger :=
  (Codec.u8.pair <| keyCodec.pair <| keyCodec.pair <| Codec.i64.pair <| Codec.u64.pair
    Codec.u64).ofEquiv {
      toFun := fun (bump, agent, pool, windowStart, issuedInWindow, livePrincipal) ↦ {
        bump, agent, pool, windowStart, issuedInWindow, livePrincipal }
      invFun ledger := (ledger.bump, ledger.agent, ledger.pool, ledger.windowStart,
        ledger.issuedInWindow, ledger.livePrincipal)
      left_inv _ := rfl
      right_inv _ := rfl }

end Escrow

namespace Registry

def AttestorConfig.codec : Codec AttestorConfig :=
  (Codec.u8.pair keyCodec).ofEquiv {
      toFun := fun (bump, governance) ↦ { bump, governance }
      invFun config := (config.bump, config.governance)
      left_inv _ := rfl
      right_inv _ := rfl }

def AllowedSigner.codec : Codec AllowedSigner :=
  (Codec.u8.pair <| keyCodec.pair <| Codec.u8.pair Codec.i64).ofEquiv {
      toFun := fun (bump, signer, kind, addedAt) ↦ { bump, signer, kind, addedAt }
      invFun allowed := (allowed.bump, allowed.signer, allowed.kind, allowed.addedAt)
      left_inv _ := rfl
      right_inv _ := rfl }

def AttestorConfig.size : ℕ := 8 + 1 + 32

def AllowedSigner.size : ℕ := 8 + 1 + 32 + 1 + 8

end Registry

/-- The types of accounts of the two programs. -/
inductive AccountKind
  | pool
  | advance
  | consumedPayment
  | liquidationTombstone
  | agentIssuanceLedger
  | attestorConfig
  | allowedSigner
  deriving DecidableEq

namespace AccountKind

abbrev Contents : AccountKind → Type
  | pool => Pool
  | advance => Advance
  | consumedPayment => ConsumedPayment
  | liquidationTombstone => LiquidationTombstone
  | agentIssuanceLedger => AgentIssuanceLedger
  | attestorConfig => AttestorConfig
  | allowedSigner => AllowedSigner

/-- The first eight bytes of the SHA-256 digest of `account:` and the name of the type. -/
def discriminator : AccountKind → Bytes 8
  | pool => ⟨[241, 154, 109, 4, 17, 177, 109, 188], rfl⟩
  | advance => ⟨[66, 25, 217, 133, 38, 192, 224, 218], rfl⟩
  | consumedPayment => ⟨[253, 69, 197, 189, 177, 114, 140, 211], rfl⟩
  | liquidationTombstone => ⟨[128, 176, 158, 33, 89, 106, 163, 211], rfl⟩
  | agentIssuanceLedger => ⟨[162, 159, 39, 195, 79, 255, 81, 171], rfl⟩
  | attestorConfig => ⟨[72, 128, 1, 99, 238, 231, 80, 72], rfl⟩
  | allowedSigner => ⟨[20, 29, 246, 132, 7, 185, 154, 29], rfl⟩

def codec : (kind : AccountKind) → Codec kind.Contents
  | pool => Pool.codec
  | advance => Advance.codec
  | consumedPayment => ConsumedPayment.codec
  | liquidationTombstone => LiquidationTombstone.codec
  | agentIssuanceLedger => AgentIssuanceLedger.codec
  | attestorConfig => AttestorConfig.codec
  | allowedSigner => AllowedSigner.codec

def type (kind : AccountKind) : AccountType kind.Contents := ⟨kind.discriminator, kind.codec⟩

/-- The `space` of the instruction that creates an account. -/
def space : AccountKind → ℕ
  | attestorConfig => AttestorConfig.size
  | allowedSigner => AllowedSigner.size
  | kind => 8 + kind.codec.space

theorem discriminator_injective : Function.Injective discriminator := by
  intro first second h
  cases first <;> cases second <;> first | rfl | cases h

theorem type_space (kind : AccountKind) : kind.type.space = kind.space := by
  cases kind <;> rfl

end AccountKind

@[simp]
theorem AdvanceState.encode_codec (state : AdvanceState) :
    AdvanceState.codec.encode state = [state.variant] := rfl

@[simp]
theorem keyCodec_encode (key : Pubkey) : keyCodec.encode key = key.toList := rfl

end CredMesh
