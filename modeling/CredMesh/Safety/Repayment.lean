import CredMesh.Chain.Acceptance
import CredMesh.Chain.Transaction
import CredMesh.Safety.Exposure
import CredMesh.Safety.Lifecycle

/-!
# Repaying an advance

When an agent that holds what it owes can settle. The settlement has to share its transaction
with a memo of the raw nonce bytes, and the memo program accepts only text, so an advance issued
under a nonce that is not text can never be repaid. What else can stand in the way is listed with
it, as far as other instructions of the same transaction do not clear it away.
-/

namespace CredMesh

open Escrow Outcome Spl IxIntrospection Client

/-! ## What is owed -/

namespace Escrow.Advance

variable (advance : Advance) (now : ℤ)

/-- The days past expiry that are charged for. -/
def chargedDays : ℕ := min 365 ((now - advance.expiresAt.toInt) / 86400).toNat

/-- The fee with the late penalty. -/
def feesAt : ℕ :=
  advance.feeOwed.toNat + advance.chargedDays now * advance.latePenaltyPerDay.toNat

def owedAt : ℕ := advance.principal.toNat + advance.feesAt now

/-- The part of the fees that goes to the treasury. -/
def protocolShareAt : ℕ := advance.feesAt now * 1500 / 10000

end Escrow.Advance

/-- Any accepted payment is divided by what is owed now. -/
theorem waterfall_shares {advance : Advance} {now : Int64} {paymentAmount : UInt64}
    {split : Waterfall} (h : waterfall advance now paymentAmount = .ok split) :
    -2 ^ 63 ≤ now.toInt - advance.expiresAt.toInt ∧
    split.protocolCut.toNat = advance.protocolShareAt now.toInt ∧
    split.lpFee.toNat + split.protocolCut.toNat = advance.feesAt now.toInt := by
  obtain ⟨latePenalty, totalOwed, hdays, howed, -, hsplits⟩ := waterfall_eq_ok.mp h
  obtain ⟨⟨helapsed, -⟩, hdays⟩ := lateDays_eq_ok.mp hdays
  obtain ⟨hpenalty, -⟩ := amountOwed_eq_ok.mp howed
  have hfees : advance.feeOwed.toNat + latePenalty.toNat = advance.feesAt now.toInt := by
    rw [Advance.feesAt, Advance.chargedDays, hpenalty, hdays]
  exact ⟨helapsed, by rw [hsplits.protocolCut, hfees]; rfl, by rw [hsplits.lpFee, hfees]⟩

/-- Every payment that covers what is owed is accepted, and no more than that is passed on. -/
theorem exists_waterfall {advance : Advance} {now : Int64} {paymentAmount : UInt64}
    (hlow : -2 ^ 63 ≤ now.toInt - advance.expiresAt.toInt)
    (hhigh : now.toInt - advance.expiresAt.toInt < 2 ^ 63)
    (hpaid : advance.owedAt now.toInt ≤ paymentAmount.toNat) :
    ∃ split, waterfall advance now paymentAmount = .ok split ∧
      split.lpCut.toNat + split.protocolCut.toNat = advance.owedAt now.toInt := by
  have hpayment := paymentAmount.toNat_lt
  have hfees : advance.owedAt now.toInt =
    advance.principal.toNat + advance.feesAt now.toInt := rfl
  have hlate : advance.feesAt now.toInt = advance.feeOwed.toNat +
    advance.chargedDays now.toInt * advance.latePenaltyPerDay.toNat := rfl
  have hshare : advance.protocolShareAt now.toInt = advance.feesAt now.toInt * 1500 / 10000 := rfl
  have hcharged : advance.chargedDays now.toInt ≤ 365 := Nat.min_le_left _ _
  obtain ⟨days, hdays⟩ := UInt64.exists_toNat_eq (show advance.chargedDays now.toInt < 2 ^ 64 by
    omega)
  obtain ⟨penalty, hpenalty⟩ := UInt64.exists_toNat_eq
    (show days.toNat * advance.latePenaltyPerDay.toNat < 2 ^ 64 by rw [hdays]; omega)
  obtain ⟨owed, howed⟩ := UInt64.exists_toNat_eq (show advance.owedAt now.toInt < 2 ^ 64 by omega)
  obtain ⟨cut, hcut⟩ := UInt64.exists_toNat_eq
    (show advance.protocolShareAt now.toInt < 2 ^ 64 by omega)
  obtain ⟨lpFee, hlpFee⟩ := UInt64.exists_toNat_eq
    (show advance.feesAt now.toInt - cut.toNat < 2 ^ 64 by omega)
  obtain ⟨lpCut, hlpCut⟩ := UInt64.exists_toNat_eq
    (show advance.principal.toNat + lpFee.toNat < 2 ^ 64 by omega)
  obtain ⟨rest, hrest⟩ := UInt64.exists_toNat_eq
    (show paymentAmount.toNat - advance.owedAt now.toInt < 2 ^ 64 by omega)
  rw [hdays] at hpenalty
  refine ⟨⟨days, cut, lpFee, lpCut, rest⟩, waterfall_eq_ok.mpr ⟨penalty, owed,
    lateDays_eq_ok.mpr ⟨⟨hlow, hhigh⟩, hdays⟩,
    amountOwed_eq_ok.mpr ⟨by rw [hpenalty, hdays], by omega⟩,
    UInt64.le_iff_toNat_le.mpr (by rw [howed]; exact hpaid), ?_⟩, ?_⟩
  · refine ⟨?_, ?_, hlpCut, ?_⟩ <;> dsimp only <;> omega
  · dsimp only
    omega

/-! ## Settling -/

/-- The bytes are the UTF-8 encoding of a text. -/
def IsText (bytes : List UInt8) : Prop := (ByteArray.mk bytes.toArray).IsValidUTF8

instance (bytes : List UInt8) : Decidable (IsText bytes) :=
  inferInstanceAs (Decidable (ByteArray.IsValidUTF8 _))

/-- The memo program succeeds on a text, if the accounts it is given sign. -/
def MemoProgram (Succeeds : Instruction → Prop) : Prop :=
  ∀ ix, ix.programId = ProgramIds.memo →
    (Succeeds ix ↔ IsText ix.data ∧ ∀ account ∈ ix.accounts, account.isSigner)

/-- Some transaction that succeeds settles the advance from the given token account. -/
def Settleable (Succeeds : Instruction → Prop) (rt : Runtime) (s : Chain) (p : Pubkey)
    (advance : Advance) (account : Pubkey) (now : Int64) : Prop :=
  ∃ calls s' call accounts paymentAmount, Completes rt Succeeds now calls s s' ∧ call ∈ calls ∧
    .pool (.claimAndSettle accounts paymentAmount) ∈ call.actions ∧ accounts.pool = p ∧
    accounts.advance = ⟨p, advance.agent, advance.receivableId⟩ ∧ accounts.agentUsdcAta = account

/-- Nothing in the present state stands in the way of a settlement from the account. An agent whose
account is the treasury itself keeps the share of the protocol. -/
structure Unobstructed (s : Chain) (ps : PoolState) (advance : Advance) (account : Pubkey)
    (now : Int64) : Prop where
  live : ps.advances.lookup (advance.agent, advance.receivableId) = some advance
  signer : s.pools.lookup advance.agent = none
  source : s.tokens.IsAccount account ps.pool.assetMint advance.agent
  funds : advance.owedAt now.toInt ≤ s.tokens.balance account +
    if account = ps.pool.treasuryAta then advance.protocolShareAt now.toInt else 0
  thawed : ¬ s.tokens.IsFrozen account
  vaultThawed : ¬ s.tokens.IsFrozen ps.pool.usdcVault
  treasury : ∃ mint owner, s.tokens.IsAccount ps.pool.treasuryAta mint owner ∧
    (advance.protocolShareAt now.toInt = 0 ∨
      mint = ps.pool.assetMint ∧ ¬ s.tokens.IsFrozen ps.pool.treasuryAta)
  assets : ps.pool.totalAssets.toNat + advance.feesAt now.toInt <
    2 ^ 64 + advance.protocolShareAt now.toInt
  accrued : ps.pool.accruedProtocolFees.toNat + advance.protocolShareAt now.toInt < 2 ^ 64

/-- The memo of a nonce is among the instructions that are scanned for it, or can be added to
them. -/
def HasMemoPlace (calls : List Invocation) (nonce : List UInt8) : Prop :=
  calls.length < maxIxScan ∨
    ∃ ix ∈ (calls.map Invocation.instruction).take maxIxScan, ix.programId = ProgramIds.memo ∧
      ix.data = nonce

/-- The nonce is text, the times of the advance can be computed with, and nothing else stands in the
way, at once or after other instructions of the transaction. -/
structure Repayable (Succeeds : Instruction → Prop) (rt : Runtime) (s : Chain) (p : Pubkey)
    (advance : Advance) (nonce : List UInt8) (account : Pubkey) (now : Int64) : Prop where
  text : IsText nonce
  windowEnd : advance.expiresAt.toInt + liquidationGraceSeconds.toInt < 2 ^ 63
  elapsed : -2 ^ 63 ≤ now.toInt - advance.expiresAt.toInt
  cleared : ∃ calls s₁ ps₁, Completes rt Succeeds now calls s s₁ ∧ HasMemoPlace calls nonce ∧
    s₁.pools.lookup p = some ps₁ ∧ Unobstructed s₁ ps₁ advance account now

/-- The accounts of a settlement, derived from the advance. -/
def settlementOf (p : Pubkey) (pool : Pool) (advance : Advance) (account : Pubkey) :
    ClaimAndSettle where
  agent := advance.agent
  advance := ⟨p, advance.agent, advance.receivableId⟩
  consumed := ⟨p, advance.agent, advance.receivableId⟩
  issuanceLedger := ⟨p, advance.agent⟩
  pool := p
  poolUsdcVault := pool.usdcVault
  agentUsdcAta := account
  protocolTreasuryAta := pool.treasuryAta
  usdcMint := pool.assetMint

section Handler

variable {rt : Runtime} {p : Pubkey} {s : PoolState} {t : TokenLedger} {advance : Advance}
  {consumed : ConsumedPayment} {ledger : AgentIssuanceLedger} {account : Pubkey}

/-- Both transfers of a settlement go through. -/
theorem exists_payments {split : Waterfall} {mintState : Mint} (hbalanced : Balanced t)
    (hmint : t.mints.lookup s.pool.assetMint = some mintState)
    (haccount : t.Undelegated account s.pool.assetMint advance.agent)
    (hthawed : ¬ t.IsFrozen account) (hvault : t.IsAccount s.pool.usdcVault s.pool.assetMint p)
    (hvaultThawed : ¬ t.IsFrozen s.pool.usdcVault)
    (htreasury : split.protocolCut.toNat = 0 ∨
      (∃ owner, t.IsAccount s.pool.treasuryAta s.pool.assetMint owner) ∧
        ¬ t.IsFrozen s.pool.treasuryAta)
    (hshare : split.protocolCut.toNat ≤ t.balance account)
    (hfunds : split.lpCut.toNat + split.protocolCut.toNat ≤ t.balance account +
      if account = s.pool.treasuryAta then split.protocolCut.toNat else 0) :
    ∃ t₁ t₂, transferIfPositive account s.pool.assetMint s.pool.treasuryAta advance.agent
        split.protocolCut mintState.decimals t = .ok t₁ ∧
      transferIfPositive account s.pool.assetMint s.pool.usdcVault advance.agent split.lpCut
        mintState.decimals t₁ = .ok t₂ := by
  obtain ⟨t₁, hfirst, hmints⟩ := exists_transferIfPositive hbalanced hmint
    (htreasury.imp_right fun ⟨hopen, hopenThawed⟩ ↦
      (⟨⟨hshare, haccount.allows _, hthawed, _, haccount.isAccount⟩, hopenThawed, hopen⟩ :
        TransferReady t account s.pool.assetMint s.pool.treasuryAta advance.agent
          split.protocolCut))
  have hflow := transferIfPositive_flow hfirst
  have hbalance := hflow.balance account
  rw [Pi.single_eq_same, Pi.single_apply] at hbalance
  have hrest := hflow.persists.undelegated haccount
  have hready : TransferReady t₁ account s.pool.assetMint s.pool.usdcVault advance.agent
      split.lpCut := {
    funds := by omega
    allowed := hrest.allows _
    thawed := (hflow.persists.isFrozen_iff account).not.mpr hthawed
    source := ⟨_, hrest.isAccount⟩
    destinationThawed := (hflow.persists.isFrozen_iff s.pool.usdcVault).not.mpr hvaultThawed
    destination := ⟨p, hflow.persists.account _ _ _ hvault⟩ }
  obtain ⟨t₂, hsecond, -⟩ := exists_transferIfPositive (hbalanced.moves hflow.toMoves)
    (by rw [hmints]; exact hmint) (.inr hready)
  exact ⟨t₁, t₂, hfirst, hsecond⟩

end Handler

variable {rt : Runtime} {trace : List Input} {s : Chain} {p : Pubkey} {ps : PoolState}
  {key : AdvanceKey} {advance : Advance} {consumed : ConsumedPayment} {account : Pubkey}
  {now : Int64} {Succeeds : Instruction → Prop}

/-- In a state in which nothing stands in the way, the settlement is accepted beside its memo. -/
theorem exists_settlement {sysvar : InstructionsSysvar} (hrun : Chain.run rt trace = .ok s)
    (hp : s.pools.lookup p = some ps)
    (hconsumed : ps.consumed.lookup (advance.agent, advance.receivableId) = some consumed)
    (hwindow : now.toInt < advance.expiresAt.toInt + liquidationGraceSeconds.toInt)
    (hwindowEnd : advance.expiresAt.toInt + liquidationGraceSeconds.toInt < 2 ^ 63)
    (helapsed : -2 ^ 63 ≤ now.toInt - advance.expiresAt.toInt)
    (hfits : advance.owedAt now.toInt < 2 ^ 64)
    (hmemo : requireMemoNonce sysvar consumed.nonce.toList = .ok ())
    (hundelegated : s.tokens.Undelegated account ps.pool.assetMint advance.agent)
    (h : Unobstructed s ps advance account now) :
    ∃ paymentAmount s', Chain.step rt ⟨⟨now, sysvar⟩, .pool (.claimAndSettle
      (settlementOf p ps.pool advance account) paymentAmount)⟩ s = .ok s' := by
  have hcustodial := Chain.run_custodial hrun
  have hcustody := hcustodial.custody p ps hp
  have hexposure := Chain.run_exposure hrun hp
  obtain ⟨found, ledger, hlive⟩ := hexposure.exists_live h.live
  obtain rfl : found = consumed := Option.some.inj (hlive.consumedFound.symm.trans hconsumed)
  obtain ⟨hdeployed, hprincipal⟩ := hexposure.principal_le hlive
  have hfloor := UInt64.le_iff_toNat_le.mp (hexposure.recorded _ advance h.live).floor
  have hminimum : minAdvanceAtoms.toNat = 1000000 := rfl
  have howed : advance.owedAt now.toInt =
    advance.principal.toNat + advance.feesAt now.toInt := rfl
  have hshare : advance.protocolShareAt now.toInt = advance.feesAt now.toInt * 1500 / 10000 := rfl
  have hfunds := h.funds
  have hshareFunds : advance.protocolShareAt now.toInt ≤ s.tokens.balance account := by
    split at hfunds <;> omega
  have hpositive : 0 < s.tokens.balance account := by
    split at hfunds <;> omega
  obtain ⟨mintState, hmint⟩ := hcustodial.balanced.exists_mint h.source hpositive
  have hgrace : liquidationGraceSeconds.toInt = 1209600 := rfl
  obtain ⟨paymentAmount, hpayment⟩ := UInt64.exists_toNat_eq hfits
  obtain ⟨split, hdivided, hpaid⟩ := exists_waterfall helapsed (by omega) hpayment.ge
  obtain ⟨-, hcut, hfee⟩ := waterfall_shares hdivided
  obtain ⟨mint, owner, ⟨treasury, htreasuryFound, rfl, rfl⟩, htreasury⟩ := h.treasury
  obtain ⟨vault, hvaultFound, -⟩ := hcustody.vault
  have hassets := h.assets
  have haccrued := h.accrued
  rw [← hcut] at hfunds hshareFunds htreasury haccrued
  have hcovered : split.lpCut.toNat + split.protocolCut.toNat ≤ s.tokens.balance account +
      if account = ps.pool.treasuryAta then split.protocolCut.toNat else 0 := by omega
  have hpayable : Payable (settlementOf p ps.pool advance account) mintState.decimals split
      s.tokens :=
    exists_payments hcustodial.balanced hmint hundelegated h.thawed hcustody.vault h.vaultThawed
      (htreasury.imp_right fun ⟨hasset, hthawed⟩ ↦
        ⟨⟨treasury.owner, treasury, htreasuryFound, hasset, rfl⟩, hthawed⟩)
      hshareFunds hcovered
  have hadmits : Admits rt (settlementOf p ps.pool advance account) ps s.tokens advance found
      ledger mintState :=
    ⟨hlive, rfl, rfl, rfl, rfl, rfl, ⟨vault, hvaultFound⟩, h.source, rfl,
      ⟨treasury, htreasuryFound⟩, rfl, hmint⟩
  have hroom : HasRoom ps.pool ledger advance split :=
    ⟨hprincipal, hdeployed, by omega, haccrued⟩
  obtain ⟨effect, heffect⟩ := (hadmits.settles_iff ⟨now, sysvar⟩ hwindow hwindowEnd).mpr
    ⟨hmemo, split, hdivided, hpayable, hroom⟩
  exact ⟨paymentAmount, _, Chain.step_pool h.signer hp hcustody.seeds heffect⟩

/-- The agent can take back a delegation of its account, and nothing stands in the way then that did
not before. -/
theorem Unobstructed.exists_revoke (h : Unobstructed s ps advance account now) (env : Env) :
    ∃ s', Chain.step rt ⟨env, .token (.revoke account advance.agent)⟩ s = .ok s' ∧
      s'.pools = s.pools ∧ Unobstructed s' ps advance account now ∧
      s'.tokens.Undelegated account ps.pool.assetMint advance.agent := by
  obtain ⟨t', hrevoke, hundelegated, hflow, -⟩ := Spl.exists_revoke h.source h.thawed
  have hfrozen := hflow.persists.isFrozen_iff
  have hbalance := hflow.balance account
  obtain ⟨mint, owner, htreasury, hshare⟩ := h.treasury
  have hstep : Chain.step rt ⟨env, .token (.revoke account advance.agent)⟩ s =
      .ok { s with tokens := t' } := by
    simp only [Chain.step, bind_eq_ok, Chain.requireSigner_eq_ok, mapError_eq_ok, pure_eq_ok]
    exact ⟨(), h.signer, t', hrevoke, rfl⟩
  refine ⟨{ s with tokens := t' }, hstep, rfl, ?_, hundelegated⟩
  exact {
    live := h.live
    signer := h.signer
    source := hundelegated.isAccount
    funds := by
      have hfunds := h.funds
      simp only [Pi.zero_apply, add_zero] at hbalance
      rwa [← hbalance] at hfunds
    thawed := (hfrozen account).not.mpr h.thawed
    vaultThawed := (hfrozen ps.pool.usdcVault).not.mpr h.vaultThawed
    treasury := ⟨mint, owner, hflow.persists.account _ _ _ htreasury,
      hshare.imp_right fun ⟨hasset, hthawed⟩ ↦ ⟨hasset, (hfrozen _).not.mpr hthawed⟩⟩
    assets := h.assets
    accrued := h.accrued }

/-- An accepted settlement of the advance found nothing in its way. -/
theorem unobstructed_of_step {sysvar : InstructionsSysvar} {accounts : ClaimAndSettle}
    {paymentAmount : UInt64} {s' : Chain} (hrun : Chain.run rt trace = .ok s)
    (hp : s.pools.lookup p = some ps)
    (hkept : ps.advances.lookup (advance.agent, advance.receivableId) = some advance ∨
      ps.advances.lookup (advance.agent, advance.receivableId) = none)
    (hpool : accounts.pool = p)
    (hnamed : accounts.advance = ⟨p, advance.agent, advance.receivableId⟩)
    (hstep : Chain.step rt ⟨⟨now, sysvar⟩, .pool (.claimAndSettle accounts paymentAmount)⟩ s =
      .ok s') :
    Unobstructed s ps advance accounts.agentUsdcAta now ∧
    advance.expiresAt.toInt + liquidationGraceSeconds.toInt < 2 ^ 63 ∧
    -2 ^ 63 ≤ now.toInt - advance.expiresAt.toInt ∧
    ∃ consumed, ps.consumed.lookup (advance.agent, advance.receivableId) = some consumed ∧
      requireMemoNonce sysvar consumed.nonce.toList = .ok () := by
  subst hpool
  obtain ⟨hsigner, effect, heffect, -⟩ := (Chain.step_pool_iff hrun hp rfl).mp hstep
  obtain ⟨other, consumed, ledger, mint, split, t₁, hadmits, hsettles, hfirst, hsecond, -⟩ :=
    claimAndSettle_eq_ok.mp heffect
  have hseeds := hadmits.named.symm.trans hnamed
  simp only [AdvanceSeeds.mk.injEq, true_and] at hseeds
  obtain rfl : other = advance := by
    have hfound := hadmits.live.found
    rw [hseeds.1, hseeds.2] at hfound
    simpa [hfound] using hkept
  obtain ⟨helapsed, hcut, hfee⟩ := waterfall_shares hsettles.divided
  dsimp only at helapsed hcut hfee
  have hfloor := UInt64.le_iff_toNat_le.mp ((Chain.run_exposure hrun hp).recorded _ _
    hadmits.live.found).floor
  have hminimum : minAdvanceAtoms.toNat = 1000000 := rfl
  obtain ⟨_, _, -, -, -, hsplits⟩ := waterfall_eq_ok.mp hsettles.divided
  have hlpCut := hsplits.lpCut
  have hflow := transferIfPositive_flow hfirst
  have hbalance := hflow.balance accounts.agentUsdcAta
  rw [Pi.single_eq_same, Pi.single_apply, hadmits.treasury] at hbalance
  have hready := (transferIfPositive_ready hsecond).resolve_left (by omega)
  have hfunds := hready.funds
  have hfrozen := hflow.persists.isFrozen_iff
  have hassets := effect.state.pool.totalAssets.toNat_lt
  have haccrued := effect.state.pool.accruedProtocolFees.toNat_lt
  rw [hsettles.assets] at hassets
  rw [hsettles.accrued] at haccrued
  refine ⟨?_, hsettles.windowEnd, helapsed, consumed, hadmits.live.consumedFound, hsettles.memo⟩
  exact {
    live := hadmits.live.found
    signer := by
      rw [← hadmits.payer]
      exact hsigner
    source := by
      rw [← hadmits.payer]
      exact hadmits.source
    funds := by
      rw [Advance.owedAt, ← hcut, ← hfee]
      omega
    thawed := (hfrozen _).not.mp hready.thawed
    vaultThawed := by
      rw [← hadmits.vault]
      exact (hfrozen _).not.mp hready.destinationThawed
    treasury := by
      obtain ⟨treasury, hfound⟩ := hadmits.treasuryFound
      rw [hadmits.treasury] at hfound
      refine ⟨treasury.mint, treasury.owner, ⟨treasury, hfound, rfl, rfl⟩, ?_⟩
      rw [← hcut]
      refine (transferIfPositive_ready hfirst).imp_right fun hpays ↦ ?_
      obtain ⟨_, found, hfound', hmint, -⟩ := hpays.destination
      have hopen := hpays.destinationThawed
      rw [hadmits.treasury] at hfound' hopen
      obtain rfl := Option.some.inj (hfound.symm.trans hfound')
      exact ⟨hmint.trans hadmits.asset, hopen⟩
    assets := by omega
    accrued := by omega }

/-- A memo of a transaction that succeeds is a text. -/
theorem isText_of_completes {calls : List Invocation} {s' : Chain} {ix : Instruction}
    (hmemo : MemoProgram Succeeds) (h : Completes rt Succeeds now calls s s')
    (hix : ix ∈ calls.map Invocation.instruction) (hprogram : ix.programId = ProgramIds.memo) :
    IsText ix.data := by
  obtain ⟨call, hcall, rfl⟩ := List.mem_map.mp hix
  have hpasses := h.passes call hcall
  cases call with
  | own action accounts data =>
      have honChain := Invocation.program_mem_onChain action
      rw [show action.program = ProgramIds.memo from hprogram] at honChain
      exact absurd honChain (by decide)
  | foreign ix actions => exact ((hmemo ix hprogram).mp hpasses.2.1).1

/-- The memo of a nonce that is text finds its place. -/
theorem exists_memo {calls : List Invocation} {s' : Chain} {nonce : List UInt8}
    (hmemo : MemoProgram Succeeds) (htext : IsText nonce)
    (h : Completes rt Succeeds now calls s s') (hplace : HasMemoPlace calls nonce) :
    ∃ calls', Completes rt Succeeds now calls' s s' ∧
      ∃ ix ∈ (calls'.map Invocation.instruction).take maxIxScan, ix.programId = ProgramIds.memo ∧
        ix.data = nonce := by
  obtain hroom | hcarried := hplace
  · have hpasses : (Invocation.foreign (memoInstruction nonce) []).Passes Succeeds := by
      refine ⟨?_, (hmemo _ rfl).mpr ⟨htext, by simp [memoInstruction]⟩, fun _ ↦ rfl⟩
      change ProgramIds.memo ∉ ProgramIds.onChain
      decide
    refine ⟨_, h.snoc hpasses rfl, memoInstruction nonce, ?_, rfl, rfl⟩
    rw [List.take_of_length_le (by simpa using Nat.succ_le_of_lt hroom)]
    simp [Invocation.instruction]
  · exact ⟨calls, h, hcarried⟩

theorem repayable_of_settleable (hmemo : MemoProgram Succeeds) (hrun : Chain.run rt trace = .ok s)
    (hp : s.pools.lookup p = some ps) (hfound : ps.advances.lookup key = some advance)
    (hconsumed : ps.consumed.lookup key = some consumed)
    (h : Settleable Succeeds rt s p advance account now) :
    Repayable Succeeds rt s p advance consumed.nonce.toList account now := by
  obtain ⟨calls, s', call, accounts, paymentAmount, hcompletes, hcall, haction, hpool, hnamed,
    rfl⟩ := h
  obtain ⟨prior, s₁, sysvar, next, hprior, hstep, hscanned⟩ :=
    hcompletes.exists_prior hcall haction
  have hrun₁ := Execution.run_append.mpr ⟨s, hrun, hprior.runs⟩
  have hkey := ((Chain.run_exposure hrun hp).recorded key advance hfound).keyed
  have hpart := List.prefix_append trace
    (Invocation.inputs now (prior.map Invocation.instruction) 0 prior)
  obtain ⟨ps₁, hp₁, hkept⟩ := Chain.advance_fixed hpart hrun₁ hrun hp hfound
  obtain ⟨found, hfound₁, hconsumed₁⟩ := Chain.consumed_forever hpart hrun₁ hrun hp hconsumed
  obtain rfl : found = ps₁ := Option.some.inj (hfound₁.symm.trans hp₁)
  rw [hkey] at hkept hconsumed₁
  obtain ⟨hclear, hwindowEnd, helapsed, other, hother, hnonce⟩ :=
    unobstructed_of_step hrun₁ hp₁ hkept hpool hnamed hstep
  obtain rfl : other = consumed := Option.some.inj (hother.symm.trans hconsumed₁)
  obtain ⟨ix, hix, hprogram, hdata⟩ := requireMemoNonce_eq_ok.mp hnonce
  have hcarried := hscanned ix hix (.inl hprogram)
  refine ⟨?_, hwindowEnd, helapsed, prior, s₁, found, hprior,
    .inr ⟨ix, hcarried, hprogram, hdata⟩, hp₁, hclear⟩
  rw [← hdata]
  exact isText_of_completes hmemo hprior (List.mem_of_mem_take hcarried) hprogram

theorem settleable_of_repayable (hmemo : MemoProgram Succeeds) (hrun : Chain.run rt trace = .ok s)
    (hp : s.pools.lookup p = some ps) (hfound : ps.advances.lookup key = some advance)
    (hconsumed : ps.consumed.lookup key = some consumed)
    (hwindow : now.toInt < advance.expiresAt.toInt + liquidationGraceSeconds.toInt)
    (hfunds : advance.owedAt now.toInt ≤ s.tokens.balance account)
    (h : Repayable Succeeds rt s p advance consumed.nonce.toList account now) :
    Settleable Succeeds rt s p advance account now := by
  obtain ⟨prior, s₁, ps₁, hprior, hplace, hp₁, hclear⟩ := h.cleared
  obtain ⟨calls, hcalls, ix, hix, hprogram, hdata⟩ := exists_memo hmemo h.text hprior hplace
  have hkey := ((Chain.run_exposure hrun hp).recorded key advance hfound).keyed
  have hfits : advance.owedAt now.toInt < 2 ^ 64 :=
    hfunds.trans_lt (s.tokens.balance_lt account)
  -- a delegation to the agent itself is taken back before the settlement
  let revoke := Invocation.own (.token (.revoke account advance.agent)) [] []
  obtain ⟨s₂, hrevoke, hpools, hclear₂, hundelegated⟩ := hclear.exists_revoke
    ⟨now, ⟨(calls ++ [revoke]).map Invocation.instruction, UInt16.ofNat calls.length⟩⟩
  have hcalls₂ : Completes rt Succeeds now (calls ++ [revoke]) s s₂ :=
    hcalls.snoc trivial (Execution.run_singleton.mpr hrevoke)
  have hrun₂ := Execution.run_append.mpr ⟨s, hrun, hcalls₂.runs⟩
  have hp₂ : s₂.pools.lookup p = some ps₁ := by rw [hpools, hp₁]
  obtain ⟨found, hfound₂, hconsumed₂⟩ :=
    Chain.consumed_forever (List.prefix_append trace _) hrun₂ hrun hp hconsumed
  obtain rfl : found = ps₁ := Option.some.inj (hfound₂.symm.trans hp₂)
  rw [hkey] at hconsumed₂
  let instructions :=
    (calls ++ [revoke]).map Invocation.instruction ++ [⟨ProgramIds.escrow, [], []⟩]
  have hnonce : requireMemoNonce ⟨instructions, UInt16.ofNat (calls ++ [revoke]).length⟩
      consumed.nonce.toList = .ok () := by
    refine requireMemoNonce_eq_ok.mpr ⟨ix, ?_, hprogram, hdata⟩
    have hfirst : calls.map Invocation.instruction <+: instructions := by
      simp only [instructions, List.map_append, List.append_assoc]
      exact List.prefix_append _ _
    exact (hfirst.take maxIxScan).subset hix
  obtain ⟨paymentAmount, s', hsettlement⟩ := exists_settlement hrun₂ hp₂ hconsumed₂ hwindow
    h.windowEnd h.elapsed hfits hnonce hundelegated hclear₂
  let settlement := Invocation.own (.pool (.claimAndSettle
    (settlementOf p found.pool advance account) paymentAmount)) [] []
  have hinstructions : ((calls ++ [revoke]) ++ [settlement]).map Invocation.instruction =
      instructions := List.map_append
  have hcompletes : Completes rt Succeeds now ((calls ++ [revoke]) ++ [settlement]) s s' := by
    refine hcalls₂.snoc trivial ?_
    rw [hinstructions]
    exact Execution.run_singleton.mpr hsettlement
  exact ⟨_, s', settlement, _, paymentAmount, hcompletes, List.mem_concat_self,
    List.mem_singleton_self _, rfl, rfl, rfl⟩

namespace Localnet

/-- Every instruction succeeds, except for a memo that is not text. -/
def Succeeded (ix : Instruction) : Prop :=
  ix.programId = ProgramIds.memo → IsText ix.data ∧ ∀ account ∈ ix.accounts, account.isSigner

theorem memoProgram_succeeded : MemoProgram Succeeded :=
  fun _ hprogram ↦ ⟨fun h ↦ h hprogram, fun h _ ↦ h⟩

/-- An advance of 100 USDC under the given nonce, and 50 USDC more for the agent. -/
def borrowed (nonce : Bytes 16) (signature : Bytes 64) : List Input := opening ++ [
  request 1 100000000 t₀ (t₀ + 86400) t₀ nonce signature,
  plain (t₀ + 50) (.token (.transfer lpUsdc usdcMint agentUsdc lp 50000000 6))]

/-- The agent is in its claim window and holds what it owes. -/
def HoldsDebt (s : Chain) (ps : PoolState) (advance : Advance) (now : Int64) : Prop :=
  now.toInt < advance.expiresAt.toInt + liquidationGraceSeconds.toInt ∧
  s.tokens.IsAccount agentUsdc ps.pool.assetMint advance.agent ∧
  advance.owedAt now.toInt ≤ s.tokens.balance agentUsdc

instance (s : Chain) (ps : PoolState) (advance : Advance) (now : Int64) :
    Decidable (HoldsDebt s ps advance now) :=
  inferInstanceAs (Decidable (_ ∧ _ ∧ _))

end Localnet

end CredMesh
