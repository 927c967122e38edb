import CredMesh.Escrow.Liquidity

/-!
# Settlement and liquidation

The two ways in which an advance ends. The agent repays principal and fees, which are split
between the treasury and the vault; or, after the grace period, anyone writes the principal off.
-/

namespace CredMesh.Escrow

open Outcome Spl IxIntrospection

structure ClaimAndSettle where
  agent : Pubkey
  advance : AdvanceSeeds
  consumed : AdvanceSeeds
  issuanceLedger : LedgerSeeds
  pool : Pubkey
  poolUsdcVault : Pubkey
  agentUsdcAta : Pubkey
  protocolTreasuryAta : Pubkey
  usdcMint : Pubkey
  deriving DecidableEq

structure Liquidate where
  cranker : Pubkey
  advance : AdvanceSeeds
  consumed : AdvanceSeeds
  issuanceLedger : LedgerSeeds
  tombstone : AdvanceSeeds
  pool : Pubkey
  deriving DecidableEq

/-- How a payment is divided. -/
structure Waterfall where
  lateDays : UInt64
  protocolCut : UInt64
  lpFee : UInt64
  lpCut : UInt64
  agentNet : UInt64
  deriving DecidableEq

/-- Whole days past expiry, clamped; the subtraction is unchecked in the source. -/
def lateDays (now expiresAt : Int64) : Except Error UInt64 := do
  let elapsed ← okOr (now.checkedSub expiresAt) .panic
  let lateSeconds := max elapsed 0
  let days := (lateSeconds / 86400).toUInt64
  pure (if maxLateDays.toUInt64 < days then maxLateDays.toUInt64 else days)

/-- The fee and late penalty, and with the principal everything that is owed. -/
def amountOwed (advance : Advance) (days : UInt64) : Except Error (UInt64 × UInt64) := do
  let latePenalty ← okOr (days.checkedMul advance.latePenaltyPerDay) (.credmesh .mathOverflow)
  let withFee ← okOr (advance.principal.checkedAdd advance.feeOwed) (.credmesh .mathOverflow)
  let totalOwed ← okOr (withFee.checkedAdd latePenalty) (.credmesh .mathOverflow)
  pure (latePenalty, totalOwed)

def waterfall (advance : Advance) (now : Int64) (paymentAmount : UInt64) :
    Except Error Waterfall := do
  let days ← lateDays now advance.expiresAt
  let (latePenalty, totalOwed) ← amountOwed advance days
  require (totalOwed ≤ paymentAmount) (.credmesh .waterfallSumMismatch)
  let totalFee ← okOr (advance.feeOwed.checkedAdd latePenalty) (.credmesh .mathOverflow)
  let scaled ← okOr (U128.checkedMul totalFee.toNat protocolFeeBps.toNat) (.credmesh .mathOverflow)
  let cut ← okOr (U128.checkedDiv scaled bpsDenominator.toNat) (.credmesh .mathOverflow)
  let protocolCut ← okOr (UInt64.tryFrom cut) (.credmesh .mathOverflow)
  let lpFee ← okOr (totalFee.checkedSub protocolCut) (.credmesh .mathOverflow)
  let lpCut ← okOr (advance.principal.checkedAdd lpFee) (.credmesh .mathOverflow)
  let afterProtocol ← okOr (paymentAmount.checkedSub protocolCut) (.credmesh .mathOverflow)
  let agentNet ← okOr (afterProtocol.checkedSub lpCut) (.credmesh .mathOverflow)
  require (((protocolCut.checkedAdd lpCut).bind fun sum ↦ sum.checkedAdd agentNet) =
    some paymentAmount) (.credmesh .waterfallSumMismatch)
  pure { lateDays := days, protocolCut, lpFee, lpCut, agentNet }

/-- A transfer that is skipped when there is nothing to move. -/
def transferIfPositive (source mint destination authority : Pubkey) (amount : UInt64)
    (decimals : UInt8) (t : TokenLedger) : Except Error TokenLedger :=
  if 0 < amount then
    (transferChecked source mint destination authority amount decimals t).mapError .token
  else pure t

variable (rt : Runtime)

/-- The records of an advance, as they are read before any constraint is checked. A record of
another pool is read as well; its seeds are not those that the constraints ask for. -/
def readAdvance (poolKey : Pubkey) (advanceSeeds consumedSeeds : AdvanceSeeds)
    (ledgerSeeds : LedgerSeeds) (s : PoolState) :
    Except Error (Advance × ConsumedPayment × AgentIssuanceLedger) := do
  require (advanceSeeds.pool = poolKey ∧ consumedSeeds.pool = poolKey ∧ ledgerSeeds.pool = poolKey)
    (.anchor .constraintSeeds)
  let advance ← okOr (s.advances.lookup advanceSeeds.key) (.anchor .accountNotInitialized)
  let consumed ← okOr (s.consumed.lookup consumedSeeds.key) (.anchor .accountNotInitialized)
  let ledger ← okOr (s.ledgers.lookup ledgerSeeds.agent) (.anchor .accountNotInitialized)
  pure (advance, consumed, ledger)

/-- The constraints on the records, shared by settlement and liquidation. -/
def requireAdvance (poolKey : Pubkey) (advanceSeeds consumedSeeds : AdvanceSeeds)
    (ledgerSeeds : LedgerSeeds) (advance : Advance) (consumed : ConsumedPayment)
    (ledger : AgentIssuanceLedger) : Except Error Unit := do
  let seeds : AdvanceSeeds := ⟨poolKey, advance.agent, advance.receivableId⟩
  require (advanceSeeds = seeds) (.anchor .constraintSeeds)
  require (advance.bump = (rt.advancePda poolKey advance.agent advance.receivableId).2)
    (.anchor .constraintSeeds)
  require (advance.state = .issued) (.credmesh .invalidAdvanceState)
  require (consumedSeeds = seeds) (.anchor .constraintSeeds)
  require (consumed.bump = (rt.consumedPda poolKey advance.agent advance.receivableId).2)
    (.anchor .constraintSeeds)
  require (consumed.agent = advance.agent) (.credmesh .replayDetected)
  require (ledgerSeeds = ⟨poolKey, advance.agent⟩) (.anchor .constraintSeeds)
  require (ledger.bump = (rt.issuanceLedgerPda poolKey advance.agent).2) (.anchor .constraintSeeds)
  require (ledger.agent = advance.agent) (.credmesh .replayDetected)
  require (ledger.pool = poolKey) (.credmesh .replayDetected)

/-- The window check of `claim_and_settle`. -/
def claimWindow (advance : Advance) (now : Int64) : Except Error Unit := do
  let claimWindowEnd ← okOr (advance.expiresAt.checkedAdd liquidationGraceSeconds)
    (.credmesh .mathOverflow)
  require (now < claimWindowEnd) (.credmesh .notSettleable)

/-- The window check of `liquidate`. -/
def liquidationWindow (advance : Advance) (now : Int64) : Except Error Unit := do
  let liquidationWindowStart ← okOr (advance.expiresAt.checkedAdd liquidationGraceSeconds)
    (.credmesh .mathOverflow)
  require (liquidationWindowStart ≤ now) (.credmesh .notLiquidatable)

def ClaimAndSettle.tryAccounts (accounts : ClaimAndSettle) (s : PoolState) (t : TokenLedger) :
    Except Error (Advance × ConsumedPayment × AgentIssuanceLedger × Mint) := do
  let (advance, consumed, ledger) ← readAdvance accounts.pool accounts.advance accounts.consumed
    accounts.issuanceLedger s
  let _ ← tokenAccount t accounts.poolUsdcVault
  let agentUsdcAta ← tokenAccount t accounts.agentUsdcAta
  let _ ← tokenAccount t accounts.protocolTreasuryAta
  let usdcMint ← mintAccount t accounts.usdcMint
  require (accounts.agent = advance.agent) (.credmesh .invalidPayer)
  requireAdvance rt accounts.pool accounts.advance accounts.consumed accounts.issuanceLedger
    advance consumed ledger
  requireAddress accounts.poolUsdcVault s.pool.usdcVault
  requireTokenAccount agentUsdcAta s.pool.assetMint accounts.agent
  requireAddress accounts.protocolTreasuryAta s.pool.treasuryAta
  requireAddress accounts.usdcMint s.pool.assetMint
  pure (advance, consumed, ledger, usdcMint)

def claimAndSettle (env : Env) (accounts : ClaimAndSettle) (paymentAmount : UInt64)
    (s : PoolState) (t : TokenLedger) : Except Error Effect := do
  let (advance, consumed, ledger, usdcMint) ← accounts.tryAccounts rt s t
  claimWindow advance env.now
  (requireMemoNonce env.sysvar consumed.nonce.toList).mapError fun _ ↦
    Error.credmesh .memoNonceMismatch
  let split ← waterfall advance env.now paymentAmount
  let t ← transferIfPositive accounts.agentUsdcAta accounts.usdcMint accounts.protocolTreasuryAta
    accounts.agent split.protocolCut usdcMint.decimals t
  let t ← transferIfPositive accounts.agentUsdcAta accounts.usdcMint accounts.poolUsdcVault
    accounts.agent split.lpCut usdcMint.decimals t
  let livePrincipal ← okOr (ledger.livePrincipal.checkedSub advance.principal)
    (.credmesh .mathOverflow)
  let deployedAmount ← okOr (s.pool.deployedAmount.checkedSub advance.principal)
    (.credmesh .mathOverflow)
  let totalAssets ← okOr (s.pool.totalAssets.checkedAdd split.lpFee) (.credmesh .mathOverflow)
  let accruedProtocolFees ← okOr (s.pool.accruedProtocolFees.checkedAdd split.protocolCut)
    (.credmesh .mathOverflow)
  pure {
    state := { s with
      pool := { s.pool with deployedAmount, totalAssets, accruedProtocolFees }
      advances := s.advances.erase accounts.advance.key
      ledgers := s.ledgers.insert advance.agent { ledger with livePrincipal } }
    tokens := t
    event := .advanceSettled accounts.pool advance.agent
      (rt.advancePda accounts.pool advance.agent advance.receivableId).1 advance.principal
      split.lpCut split.protocolCut split.agentNet split.lateDays.toUInt32 }

/-- The tombstone that a liquidation writes. -/
def tombstoneOf (now : Int64) (poolKey : Pubkey) (advance : Advance) : LiquidationTombstone where
  bump := (rt.tombstonePda poolKey advance.agent advance.receivableId).2
  agent := advance.agent
  principal := advance.principal
  expiresAt := advance.expiresAt
  liquidatedAt := now

/-- The tombstone is created before the constraints on the other accounts are checked. -/
def Liquidate.tryAccounts (accounts : Liquidate) (s : PoolState) :
    Except Error (Advance × ConsumedPayment × AgentIssuanceLedger) := do
  let (advance, consumed, ledger) ← readAdvance accounts.pool accounts.advance accounts.consumed
    accounts.issuanceLedger s
  require (accounts.tombstone = ⟨accounts.pool, advance.agent, advance.receivableId⟩)
    (.anchor .constraintSeeds)
  require (s.tombstones.lookup accounts.tombstone.key = none) (.anchor .accountAlreadyInUse)
  requireAdvance rt accounts.pool accounts.advance accounts.consumed accounts.issuanceLedger
    advance consumed ledger
  pure (advance, consumed, ledger)

def liquidate (env : Env) (accounts : Liquidate) (s : PoolState) (t : TokenLedger) :
    Except Error Effect := do
  let (advance, _, ledger) ← accounts.tryAccounts rt s
  liquidationWindow advance env.now
  let livePrincipal ← okOr (ledger.livePrincipal.checkedSub advance.principal)
    (.credmesh .mathOverflow)
  let deployedAmount ← okOr (s.pool.deployedAmount.checkedSub advance.principal)
    (.credmesh .mathOverflow)
  let totalAssets ← okOr (s.pool.totalAssets.checkedSub advance.principal)
    (.credmesh .mathOverflow)
  let tombstone := tombstoneOf rt env.now accounts.pool advance
  pure {
    state := { s with
      pool := { s.pool with deployedAmount, totalAssets }
      advances := s.advances.erase accounts.advance.key
      ledgers := s.ledgers.insert advance.agent { ledger with livePrincipal }
      tombstones := s.tombstones.insert accounts.tombstone.key tombstone }
    tokens := t
    event := .advanceLiquidated accounts.pool advance.agent
      (rt.advancePda accounts.pool advance.agent advance.receivableId).1 advance.principal }

/-! ## Exact values -/

@[simp]
theorem protocolFeeBps_toNat : protocolFeeBps.toNat = 1500 := rfl

/-- The whole days from expiry to now, none before expiry and at most a year of them. -/
theorem lateDays_eq_ok {now expiresAt : Int64} {days : UInt64} :
    lateDays now expiresAt = .ok days ↔
      (-2 ^ 63 ≤ now.toInt - expiresAt.toInt ∧ now.toInt - expiresAt.toInt < 2 ^ 63) ∧
      days.toNat = min 365 ((now.toInt - expiresAt.toInt) / 86400).toNat := by
  have hcap : maxLateDays.toUInt64.toNat = 365 := rfl
  have hclamped (elapsed : Int64) :
      (if maxLateDays.toUInt64 < (max elapsed 0 / 86400).toUInt64 then maxLateDays.toUInt64
        else (max elapsed 0 / 86400).toUInt64).toNat = min 365 (elapsed.toInt / 86400).toNat := by
    have hdivided : (max elapsed 0 / 86400).toInt = max elapsed.toInt 0 / 86400 := by
      rw [Int64.toInt_div_of_ne_right _ _ (by decide), Int64.toInt_max_zero]
      exact Int.tdiv_eq_ediv_of_nonneg (by omega)
    have hdays := Int64.toNat_toUInt64 (a := max elapsed 0 / 86400) (by omega)
    rw [hdivided] at hdays
    split
    case isTrue h =>
      have hlt := UInt64.lt_iff_toNat_lt.mp h
      omega
    case isFalse h =>
      have hle := UInt64.le_iff_toNat_le.mp (UInt64.not_lt.mp h)
      omega
  simp only [lateDays, bind_eq_ok, okOr_eq_ok, pure_eq_ok, Int64.checkedSub_eq_some]
  constructor
  · rintro ⟨elapsed, helapsed, rfl⟩
    have hlo := elapsed.le_toInt
    have hhi := elapsed.toInt_lt
    refine ⟨by omega, ?_⟩
    rw [hclamped, helapsed]
  · rintro ⟨⟨hlo, hhi⟩, hdays⟩
    obtain ⟨elapsed, helapsed⟩ := Int64.exists_toInt_eq hlo hhi
    refine ⟨elapsed, helapsed, ?_⟩
    rw [← UInt64.toNat_inj, hclamped, hdays, helapsed]

theorem amountOwed_eq_ok {advance : Advance} {days latePenalty totalOwed : UInt64} :
    amountOwed advance days = .ok (latePenalty, totalOwed) ↔
      latePenalty.toNat = days.toNat * advance.latePenaltyPerDay.toNat ∧
      totalOwed.toNat =
        advance.principal.toNat + advance.feeOwed.toNat + latePenalty.toNat := by
  simp only [amountOwed, bind_eq_ok, okOr_eq_ok, pure_eq_ok, UInt64.checkedMul_eq_some,
    UInt64.checkedAdd_eq_some, Prod.mk.injEq]
  constructor
  · rintro ⟨_, hlate, withFee, hfee, _, htotal, rfl, rfl⟩
    exact ⟨hlate, by omega⟩
  · rintro ⟨hlate, htotal⟩
    have hlt := totalOwed.toNat_lt
    obtain ⟨withFee, hfee⟩ : ∃ c : UInt64, c.toNat =
        advance.principal.toNat + advance.feeOwed.toNat := UInt64.exists_toNat_eq (by omega)
    exact ⟨latePenalty, hlate, withFee, hfee, totalOwed, by omega, rfl, rfl⟩

/-- Everything above the principal is divided 15 to 85, the rounding in favour of the pool. -/
structure Splits (advance : Advance) (latePenalty paymentAmount : UInt64) (split : Waterfall) :
    Prop where
  protocolCut : split.protocolCut.toNat =
    (advance.feeOwed.toNat + latePenalty.toNat) * 1500 / 10000
  lpFee : split.lpFee.toNat + split.protocolCut.toNat =
    advance.feeOwed.toNat + latePenalty.toNat
  lpCut : split.lpCut.toNat = advance.principal.toNat + split.lpFee.toNat
  agentNet : split.protocolCut.toNat + split.lpCut.toNat + split.agentNet.toNat =
    paymentAmount.toNat

theorem waterfall_eq_ok {advance : Advance} {now : Int64} {paymentAmount : UInt64}
    {split : Waterfall} :
    waterfall advance now paymentAmount = .ok split ↔
      ∃ latePenalty totalOwed : UInt64, lateDays now advance.expiresAt = .ok split.lateDays ∧
        amountOwed advance split.lateDays = .ok (latePenalty, totalOwed) ∧
        totalOwed ≤ paymentAmount ∧ Splits advance latePenalty paymentAmount split := by
  simp only [waterfall, bind_eq_ok, okOr_eq_ok, require_eq_ok, pure_eq_ok, Prod.exists,
    UInt64.checkedAdd_eq_some, UInt64.checkedSub_eq_some, U128.checkedMul_eq_some,
    U128.checkedDiv_eq_some, UInt64.tryFrom_eq_some, bpsDenominator_toNat, protocolFeeBps_toNat,
    Option.bind_eq_some_iff]
  constructor
  · rintro ⟨days, hdays, latePenalty, totalOwed, howed, -, hpaid, totalFee, htotalFee, _, ⟨-, rfl⟩,
      _, ⟨-, rfl⟩, protocolCut, hprotocol, lpFee, hlpFee, lpCut, hlpCut, rest, hrest, agentNet,
      hnet, -, -, rfl⟩
    rw [htotalFee] at hprotocol hlpFee
    exact ⟨latePenalty, totalOwed, hdays, howed, hpaid, hprotocol, hlpFee, hlpCut, by
      dsimp only
      omega⟩
  · rintro ⟨latePenalty, totalOwed, hdays, howed, hpaid, hprotocol, hlpFee, hlpCut, hnet⟩
    have hpayment := paymentAmount.toNat_lt
    have hpaid' := UInt64.le_iff_toNat_le.mp hpaid
    have htotal := (amountOwed_eq_ok.mp howed).2
    obtain ⟨totalFee, htotalFee⟩ : ∃ c : UInt64, c.toNat =
        advance.feeOwed.toNat + latePenalty.toNat := UInt64.exists_toNat_eq (by omega)
    obtain ⟨rest, hrest⟩ : ∃ c : UInt64, c.toNat = split.lpCut.toNat + split.agentNet.toNat :=
      UInt64.exists_toNat_eq (by omega)
    obtain ⟨cuts, hcuts⟩ : ∃ c : UInt64, c.toNat = split.protocolCut.toNat + split.lpCut.toNat :=
      UInt64.exists_toNat_eq (by omega)
    rw [← htotalFee] at hprotocol hlpFee
    exact ⟨split.lateDays, hdays, latePenalty, totalOwed, howed, (), hpaid, totalFee, htotalFee,
      _, ⟨by omega, rfl⟩, _, ⟨by omega, rfl⟩, split.protocolCut, hprotocol, split.lpFee, hlpFee,
      split.lpCut, hlpCut, rest, by omega, split.agentNet, by omega, (),
      ⟨cuts, hcuts, by omega⟩, rfl⟩

/-! ## Effects -/

/-- An issued advance with the consumed payment and the ledger that belong to it, all at their
derived addresses. -/
structure Live (rt : Runtime) (poolKey : Pubkey) (s : PoolState) (advance : Advance)
    (consumed : ConsumedPayment) (ledger : AgentIssuanceLedger) : Prop where
  found : s.advances.lookup (advance.agent, advance.receivableId) = some advance
  bump : advance.bump = (rt.advancePda poolKey advance.agent advance.receivableId).2
  issued : advance.state = .issued
  consumedFound : s.consumed.lookup (advance.agent, advance.receivableId) = some consumed
  consumedBump : consumed.bump = (rt.consumedPda poolKey advance.agent advance.receivableId).2
  consumedAgent : consumed.agent = advance.agent
  ledgerFound : s.ledgers.lookup advance.agent = some ledger
  ledgerBump : ledger.bump = (rt.issuanceLedgerPda poolKey advance.agent).2
  ledgerAgent : ledger.agent = advance.agent
  ledgerPool : ledger.pool = poolKey

variable {rt} {env : Env} {s : PoolState} {t : TokenLedger} {effect : Effect}

/-- Records that pass their constraints are those of a live advance, at the addresses derived from
it. -/
theorem readAdvance_and_requireAdvance_iff {poolKey : Pubkey}
    {advanceSeeds consumedSeeds : AdvanceSeeds} {ledgerSeeds : LedgerSeeds} {advance : Advance}
    {consumed : ConsumedPayment} {ledger : AgentIssuanceLedger} :
    readAdvance poolKey advanceSeeds consumedSeeds ledgerSeeds s =
        .ok (advance, consumed, ledger) ∧
      requireAdvance rt poolKey advanceSeeds consumedSeeds ledgerSeeds advance consumed ledger =
        .ok () ↔
      advanceSeeds = ⟨poolKey, advance.agent, advance.receivableId⟩ ∧
      consumedSeeds = ⟨poolKey, advance.agent, advance.receivableId⟩ ∧
      ledgerSeeds = ⟨poolKey, advance.agent⟩ ∧ Live rt poolKey s advance consumed ledger := by
  simp only [readAdvance, requireAdvance, bind_eq_ok, okOr_eq_ok, require_eq_ok, pure_eq_ok,
    Prod.mk.injEq]
  constructor
  · rintro ⟨⟨-, -, _, hadvance, _, hconsumed, _, hledger, rfl, rfl, rfl⟩, -, rfl, -, hbump, -,
      hissued, -, rfl, -, hconsumedBump, -, hconsumedAgent, -, rfl, -, hledgerBump, -,
      hledgerAgent, hledgerPool⟩
    exact ⟨rfl, rfl, rfl, hadvance, hbump, hissued, hconsumed, hconsumedBump, hconsumedAgent,
      hledger, hledgerBump, hledgerAgent, hledgerPool⟩
  · rintro ⟨rfl, rfl, rfl, hlive⟩
    exact ⟨⟨(), ⟨rfl, rfl, rfl⟩, advance, hlive.found, consumed, hlive.consumedFound, ledger,
      hlive.ledgerFound, rfl, rfl, rfl⟩, (), rfl, (), hlive.bump, (), hlive.issued, (), rfl, (),
      hlive.consumedBump, (), hlive.consumedAgent, (), rfl, (), hlive.ledgerBump, (),
      hlive.ledgerAgent, hlive.ledgerPool⟩

/-- The end of the grace period is a timestamp. -/
def Advance.GraceFits (advance : Advance) : Prop :=
  advance.expiresAt.toInt + liquidationGraceSeconds.toInt < 2 ^ 63

theorem claimWindow_eq_ok {advance : Advance} {now : Int64} :
    claimWindow advance now = .ok () ↔
      advance.GraceFits ∧
      now.toInt < advance.expiresAt.toInt + liquidationGraceSeconds.toInt := by
  have hgrace : liquidationGraceSeconds.toInt = 1209600 := rfl
  have hexpires := advance.expiresAt.le_toInt
  simp only [claimWindow, bind_eq_ok, okOr_eq_ok, require_eq_ok, Int64.checkedAdd_eq_some,
    Advance.GraceFits]
  constructor
  · rintro ⟨windowEnd, hend, hnow⟩
    exact ⟨hend ▸ windowEnd.toInt_lt, hend ▸ Int64.lt_iff_toInt_lt.mp hnow⟩
  · rintro ⟨hfits, hnow⟩
    obtain ⟨windowEnd, hend⟩ := Int64.exists_toInt_eq (by omega) hfits
    exact ⟨windowEnd, hend, Int64.lt_iff_toInt_lt.mpr (hend ▸ hnow)⟩

theorem liquidationWindow_eq_ok {advance : Advance} {now : Int64} :
    liquidationWindow advance now = .ok () ↔
      advance.GraceFits ∧
      advance.expiresAt.toInt + liquidationGraceSeconds.toInt ≤ now.toInt := by
  have hgrace : liquidationGraceSeconds.toInt = 1209600 := rfl
  have hexpires := advance.expiresAt.le_toInt
  simp only [liquidationWindow, bind_eq_ok, okOr_eq_ok, require_eq_ok, Int64.checkedAdd_eq_some,
    Advance.GraceFits]
  constructor
  · rintro ⟨windowStart, hstart, hnow⟩
    exact ⟨hstart ▸ windowStart.toInt_lt, hstart ▸ Int64.le_iff_toInt_le.mp hnow⟩
  · rintro ⟨hfits, hnow⟩
    obtain ⟨windowStart, hstart⟩ := Int64.exists_toInt_eq (by omega) hfits
    exact ⟨windowStart, hstart, Int64.le_iff_toInt_le.mpr (hstart ▸ hnow)⟩

/-- The bookkeeping of an advance that ends: it is closed and its principal leaves the ledger and
the deployed amount. -/
structure Closes (s : PoolState) (advance : Advance) (ledger : AgentIssuanceLedger)
    (s' : PoolState) : Prop where
  advances : s'.advances = s.advances.erase (advance.agent, advance.receivableId)
  consumed : s'.consumed = s.consumed
  ledgers : ∃ livePrincipal : UInt64,
    livePrincipal.toNat + advance.principal.toNat = ledger.livePrincipal.toNat ∧
    s'.ledgers = s.ledgers.insert advance.agent { ledger with livePrincipal }
  deployed : s'.pool.deployedAmount.toNat + advance.principal.toNat =
    s.pool.deployedAmount.toNat

/-- A successful `claim_and_settle` of an advance, with the division of the payment. -/
structure Settles (rt : Runtime) (env : Env) (accounts : ClaimAndSettle) (paymentAmount : UInt64)
    (s : PoolState) (advance : Advance) (consumed : ConsumedPayment)
    (ledger : AgentIssuanceLedger) (split : Waterfall) (s' : PoolState) : Prop where
  live : Live rt accounts.pool s advance consumed ledger
  named : accounts.advance = ⟨accounts.pool, advance.agent, advance.receivableId⟩
  payer : accounts.agent = advance.agent
  window : env.now.toInt < advance.expiresAt.toInt + liquidationGraceSeconds.toInt
  windowEnd : advance.expiresAt.toInt + liquidationGraceSeconds.toInt < 2 ^ 63
  memo : requireMemoNonce env.sysvar consumed.nonce.toList = .ok ()
  divided : waterfall advance env.now paymentAmount = .ok split
  closes : Closes s advance ledger s'
  assets : s'.pool.totalAssets.toNat = s.pool.totalAssets.toNat + split.lpFee.toNat
  accrued : s'.pool.accruedProtocolFees.toNat =
    s.pool.accruedProtocolFees.toNat + split.protocolCut.toNat
  pool : s'.pool = { s.pool with
    deployedAmount := s'.pool.deployedAmount
    totalAssets := s'.pool.totalAssets
    accruedProtocolFees := s'.pool.accruedProtocolFees }
  tombstones : s'.tombstones = s.tombstones

/-- A successful `liquidate` of an advance. -/
structure Liquidates (rt : Runtime) (env : Env) (accounts : Liquidate) (s : PoolState)
    (advance : Advance) (consumed : ConsumedPayment) (ledger : AgentIssuanceLedger)
    (s' : PoolState) : Prop where
  live : Live rt accounts.pool s advance consumed ledger
  named : accounts.advance = ⟨accounts.pool, advance.agent, advance.receivableId⟩
  window : advance.expiresAt.toInt + liquidationGraceSeconds.toInt ≤ env.now.toInt
  closes : Closes s advance ledger s'
  assets : s'.pool.totalAssets.toNat + advance.principal.toNat = s.pool.totalAssets.toNat
  pool : s'.pool = { s.pool with
    deployedAmount := s'.pool.deployedAmount
    totalAssets := s'.pool.totalAssets }
  unburied : s.tombstones.lookup (advance.agent, advance.receivableId) = none
  tombstones : s'.tombstones = s.tombstones.insert (advance.agent, advance.receivableId)
    (tombstoneOf rt env.now accounts.pool advance)

theorem Settles.key_eq {accounts : ClaimAndSettle} {paymentAmount : UInt64} {advance : Advance}
    {consumed : ConsumedPayment} {ledger : AgentIssuanceLedger} {split : Waterfall}
    {s' : PoolState}
    (h : Settles rt env accounts paymentAmount s advance consumed ledger split s') :
    accounts.advance.key = (advance.agent, advance.receivableId) :=
  congrArg AdvanceSeeds.key h.named

theorem Settles.stored {accounts : ClaimAndSettle} {paymentAmount : UInt64} {advance : Advance}
    {consumed : ConsumedPayment} {ledger : AgentIssuanceLedger} {split : Waterfall}
    {s' : PoolState}
    (h : Settles rt env accounts paymentAmount s advance consumed ledger split s') :
    s.advances.lookup accounts.advance.key = some advance := by
  rw [h.key_eq]
  exact h.live.found

theorem Liquidates.key_eq {accounts : Liquidate} {advance : Advance} {consumed : ConsumedPayment}
    {ledger : AgentIssuanceLedger} {s' : PoolState}
    (h : Liquidates rt env accounts s advance consumed ledger s') :
    accounts.advance.key = (advance.agent, advance.receivableId) :=
  congrArg AdvanceSeeds.key h.named

theorem Liquidates.stored {accounts : Liquidate} {advance : Advance} {consumed : ConsumedPayment}
    {ledger : AgentIssuanceLedger} {s' : PoolState}
    (h : Liquidates rt env accounts s advance consumed ledger s') :
    s.advances.lookup accounts.advance.key = some advance := by
  rw [h.key_eq]
  exact h.live.found

theorem transferIfPositive_flow {source mint destination authority : Pubkey} {amount : UInt64}
    {decimals : UInt8} {t' : TokenLedger}
    (h : transferIfPositive source mint destination authority amount decimals t = .ok t') :
    Flow t t' (Pi.single source amount.toNat) (Pi.single destination amount.toNat) 0 0 := by
  simp only [transferIfPositive, ite_eq_ok, mapError_eq_ok, pure_eq_ok] at h
  obtain ⟨-, htransfer⟩ | ⟨hzero, rfl⟩ := h
  · exact transferChecked_flow htransfer
  · obtain rfl : amount = 0 := by
      rw [← UInt64.toNat_inj]
      simpa [UInt64.lt_iff_toNat_lt] using hzero
    simpa using Flow.refl t

theorem transferIfPositive_ready {source mint destination authority : Pubkey} {amount : UInt64}
    {decimals : UInt8} {t' : TokenLedger}
    (h : transferIfPositive source mint destination authority amount decimals t = .ok t') :
    amount.toNat = 0 ∨ TransferReady t source mint destination authority amount := by
  simp only [transferIfPositive, ite_eq_ok, mapError_eq_ok] at h
  obtain ⟨-, htransfer⟩ | ⟨hzero, -⟩ := h
  · exact .inr (transferChecked_ready htransfer)
  · exact .inl (by simpa [UInt64.lt_iff_toNat_lt] using hzero)

theorem exists_transferIfPositive {source mint destination authority : Pubkey} {amount : UInt64}
    {mintState : Mint} (hbalanced : Balanced t) (hmint : t.mints.lookup mint = some mintState)
    (hready : amount.toNat = 0 ∨ TransferReady t source mint destination authority amount) :
    ∃ t', transferIfPositive source mint destination authority amount mintState.decimals t =
      .ok t' ∧ t'.mints = t.mints := by
  unfold transferIfPositive
  split
  case isTrue hpositive =>
    have hne : amount.toNat ≠ 0 := by
      simpa [Nat.pos_iff_ne_zero] using UInt64.lt_iff_toNat_lt.mp hpositive
    obtain ⟨t', htransfer⟩ := exists_transferChecked hbalanced (hready.resolve_left hne) hmint
    exact ⟨t', mapError_eq_ok.mpr htransfer, transferChecked_mints htransfer⟩
  case isFalse => exact ⟨t, rfl, rfl⟩

/-- The account constraints of a settlement of an advance, with the records it loads. -/
structure Admits (rt : Runtime) (accounts : ClaimAndSettle) (s : PoolState) (t : TokenLedger)
    (advance : Advance) (consumed : ConsumedPayment) (ledger : AgentIssuanceLedger)
    (mint : Mint) : Prop where
  live : Live rt accounts.pool s advance consumed ledger
  named : accounts.advance = ⟨accounts.pool, advance.agent, advance.receivableId⟩
  consumedNamed : accounts.consumed = ⟨accounts.pool, advance.agent, advance.receivableId⟩
  ledgerNamed : accounts.issuanceLedger = ⟨accounts.pool, advance.agent⟩
  payer : accounts.agent = advance.agent
  vault : accounts.poolUsdcVault = s.pool.usdcVault
  vaultFound : ∃ account, t.accounts.lookup accounts.poolUsdcVault = some account
  source : t.IsAccount accounts.agentUsdcAta s.pool.assetMint accounts.agent
  treasury : accounts.protocolTreasuryAta = s.pool.treasuryAta
  treasuryFound : ∃ account, t.accounts.lookup accounts.protocolTreasuryAta = some account
  asset : accounts.usdcMint = s.pool.assetMint
  assetFound : t.mints.lookup accounts.usdcMint = some mint

theorem ClaimAndSettle.tryAccounts_eq_ok {accounts : ClaimAndSettle} {advance : Advance}
    {consumed : ConsumedPayment} {ledger : AgentIssuanceLedger} {mint : Mint} :
    accounts.tryAccounts rt s t = .ok (advance, consumed, ledger, mint) ↔
      Admits rt accounts s t advance consumed ledger mint := by
  simp only [ClaimAndSettle.tryAccounts, requireAddress, tokenAccount, mintAccount, bind_eq_ok,
    okOr_eq_ok, require_eq_ok, pure_eq_ok, Prod.exists, Prod.mk.injEq, requireTokenAccount_eq_ok]
  constructor
  · rintro ⟨_, _, _, hread, vault, hvaultFound, source, hsource, treasury, htreasuryFound, _, hmint,
      -, hpayer, ⟨⟩, hchecked, -, hvault, -, hpays, -, htreasury, -, hasset, rfl, rfl, rfl, rfl⟩
    obtain ⟨hnamed, hconsumed, hledger, hlive⟩ :=
      readAdvance_and_requireAdvance_iff.mp ⟨hread, hchecked⟩
    exact ⟨hlive, hnamed, hconsumed, hledger, hpayer, hvault, ⟨vault, hvaultFound⟩,
      ⟨source, hsource, hpays⟩, htreasury, ⟨treasury, htreasuryFound⟩, hasset, hmint⟩
  · intro hadmits
    obtain ⟨vault, hvault⟩ := hadmits.vaultFound
    obtain ⟨source, hsource, hpays⟩ := hadmits.source
    obtain ⟨treasury, htreasury⟩ := hadmits.treasuryFound
    obtain ⟨hread, hchecked⟩ := readAdvance_and_requireAdvance_iff.mpr
      ⟨hadmits.named, hadmits.consumedNamed, hadmits.ledgerNamed, hadmits.live⟩
    exact ⟨advance, consumed, ledger, hread, vault, hvault, source, hsource, treasury, htreasury,
      mint, hadmits.assetFound, (), hadmits.payer, (), hchecked, (), hadmits.vault, (), hpays, (),
      hadmits.treasury, (), hadmits.asset, rfl, rfl, rfl, rfl⟩

theorem Admits.key_eq {accounts : ClaimAndSettle} {advance : Advance} {consumed : ConsumedPayment}
    {ledger : AgentIssuanceLedger} {mint : Mint}
    (h : Admits rt accounts s t advance consumed ledger mint) :
    accounts.advance.key = (advance.agent, advance.receivableId) :=
  congrArg AdvanceSeeds.key h.named

/-- The accounts determine the records. -/
theorem Admits.unique {accounts : ClaimAndSettle} {advance advance' : Advance}
    {consumed consumed' : ConsumedPayment} {ledger ledger' : AgentIssuanceLedger}
    {mint mint' : Mint} (h : Admits rt accounts s t advance consumed ledger mint)
    (h' : Admits rt accounts s t advance' consumed' ledger' mint') :
    advance = advance' ∧ consumed = consumed' ∧ ledger = ledger' ∧ mint = mint' := by
  have hkey := h.key_eq.symm.trans h'.key_eq
  have hadvance : advance = advance' := by
    have hfound := h.live.found
    rw [hkey, h'.live.found] at hfound
    exact (Option.some.inj hfound).symm
  subst hadvance
  exact ⟨rfl, Option.some.inj (h.live.consumedFound.symm.trans h'.live.consumedFound),
    Option.some.inj (h.live.ledgerFound.symm.trans h'.live.ledgerFound),
    Option.some.inj (h.assetFound.symm.trans h'.assetFound)⟩

/-- A settlement writes nothing but the pool, the advances and the ledgers. -/
theorem Settles.state_eq {accounts : ClaimAndSettle} {paymentAmount : UInt64} {advance : Advance}
    {consumed : ConsumedPayment} {ledger : AgentIssuanceLedger} {split : Waterfall}
    {s' : PoolState}
    (h : Settles rt env accounts paymentAmount s advance consumed ledger split s') :
    { s with
      pool := { s.pool with
        deployedAmount := s'.pool.deployedAmount
        totalAssets := s'.pool.totalAssets
        accruedProtocolFees := s'.pool.accruedProtocolFees }
      advances := s.advances.erase (advance.agent, advance.receivableId)
      ledgers := s'.ledgers } = s' := by
  rw [← h.pool, ← h.closes.advances, ← h.closes.consumed, ← h.tombstones]

/-- A settlement in full: what its accounts admit, what it writes, moves and emits. -/
theorem claimAndSettle_eq_ok {accounts : ClaimAndSettle} {paymentAmount : UInt64} :
    claimAndSettle rt env accounts paymentAmount s t = .ok effect ↔
      ∃ advance consumed ledger mint split t₁,
        Admits rt accounts s t advance consumed ledger mint ∧
        Settles rt env accounts paymentAmount s advance consumed ledger split effect.state ∧
        transferIfPositive accounts.agentUsdcAta accounts.usdcMint accounts.protocolTreasuryAta
          accounts.agent split.protocolCut mint.decimals t = .ok t₁ ∧
        transferIfPositive accounts.agentUsdcAta accounts.usdcMint accounts.poolUsdcVault
          accounts.agent split.lpCut mint.decimals t₁ = .ok effect.tokens ∧
        effect.event = .advanceSettled accounts.pool advance.agent
          (rt.advancePda accounts.pool advance.agent advance.receivableId).1 advance.principal
          split.lpCut split.protocolCut split.agentNet split.lateDays.toUInt32 := by
  simp only [claimAndSettle, bind_eq_ok, okOr_eq_ok, mapError_eq_ok, pure_eq_ok, Prod.exists,
    ClaimAndSettle.tryAccounts_eq_ok, UInt64.checkedAdd_eq_some, UInt64.checkedSub_eq_some]
  constructor
  · rintro ⟨advance, consumed, ledger, mint, hadmits, ⟨⟩, hwindow, ⟨⟩, hmemo, split, hdivided, t₁,
      hfirst, t₂, hsecond, livePrincipal, hprincipal, deployed, hdeployed, totalAssets, hassets,
      accrued, haccrued, rfl⟩
    rw [claimWindow_eq_ok] at hwindow
    refine ⟨advance, consumed, ledger, mint, split, t₁, hadmits, ?_, hfirst, hsecond, rfl⟩
    exact {
      live := hadmits.live
      named := hadmits.named
      payer := hadmits.payer
      window := hwindow.2
      windowEnd := hwindow.1
      memo := hmemo
      divided := hdivided
      closes := ⟨by rw [hadmits.named]; rfl, rfl, ⟨livePrincipal, hprincipal, rfl⟩, hdeployed⟩
      assets := hassets
      accrued := haccrued
      pool := rfl
      tombstones := rfl }
  · rintro ⟨advance, consumed, ledger, mint, split, t₁, hadmits, hsettles, hfirst, hsecond, hevent⟩
    obtain ⟨livePrincipal, hprincipal, hledgers⟩ := hsettles.closes.ledgers
    have hstate := hsettles.state_eq
    rw [hledgers, ← hsettles.key_eq] at hstate
    refine ⟨advance, consumed, ledger, mint, hadmits, (), claimWindow_eq_ok.mpr
      ⟨hsettles.windowEnd, hsettles.window⟩, (), hsettles.memo, split, hsettles.divided, t₁, hfirst,
      effect.tokens, hsecond, livePrincipal, hprincipal, effect.state.pool.deployedAmount,
      hsettles.closes.deployed, effect.state.pool.totalAssets, hsettles.assets,
      effect.state.pool.accruedProtocolFees, hsettles.accrued, ?_⟩
    rw [hstate, ← hevent]

/-- A settlement debits the agent, one part going to the treasury and the other to the vault. -/
theorem claimAndSettle_effect {accounts : ClaimAndSettle} {paymentAmount : UInt64}
    (h : claimAndSettle rt env accounts paymentAmount s t = .ok effect) :
    ∃ advance consumed ledger split,
      Settles rt env accounts paymentAmount s advance consumed ledger split effect.state ∧
      t.IsAccount accounts.agentUsdcAta s.pool.assetMint accounts.agent ∧
      (∃ mint owner, t.IsAccount s.pool.treasuryAta mint owner ∧
        (split.protocolCut.toNat = 0 ∨ mint = s.pool.assetMint)) ∧
      Flow t effect.tokens
        (Pi.single accounts.agentUsdcAta split.protocolCut.toNat +
          Pi.single accounts.agentUsdcAta split.lpCut.toNat)
        (Pi.single s.pool.treasuryAta split.protocolCut.toNat +
          Pi.single s.pool.usdcVault split.lpCut.toNat) 0 0 := by
  obtain ⟨advance, consumed, ledger, mint, split, t₁, hadmits, hsettles, hprotocol, hlp, -⟩ :=
    claimAndSettle_eq_ok.mp h
  obtain ⟨treasury, hfound⟩ := hadmits.treasuryFound
  have hflow := (transferIfPositive_flow hprotocol).trans (transferIfPositive_flow hlp)
  have htarget : split.protocolCut.toNat = 0 ∨ treasury.mint = s.pool.assetMint := by
    refine (transferIfPositive_ready hprotocol).imp_right fun hready ↦ ?_
    obtain ⟨_, other, hother, hothermint, -⟩ := hready.destination
    obtain rfl : treasury = other := by simpa [hfound] using hother
    rw [hothermint, hadmits.asset]
  rw [hadmits.vault, hadmits.treasury, zero_add] at hflow
  rw [hadmits.treasury] at hfound
  exact ⟨advance, consumed, ledger, split, hsettles, hadmits.source,
    ⟨treasury.mint, treasury.owner, ⟨treasury, hfound, rfl, rfl⟩, htarget⟩, hflow⟩

/-- The transfers of a settlement go through, first the one to the treasury. -/
def Payable (accounts : ClaimAndSettle) (decimals : UInt8) (split : Waterfall) (t : TokenLedger) :
    Prop :=
  ∃ t₁ t₂, transferIfPositive accounts.agentUsdcAta accounts.usdcMint
      accounts.protocolTreasuryAta accounts.agent split.protocolCut decimals t = .ok t₁ ∧
    transferIfPositive accounts.agentUsdcAta accounts.usdcMint accounts.poolUsdcVault
      accounts.agent split.lpCut decimals t₁ = .ok t₂

/-- The counters hold the principal that leaves them and have room for the fees. -/
structure HasRoom (pool : Pool) (ledger : AgentIssuanceLedger) (advance : Advance)
    (split : Waterfall) : Prop where
  livePrincipal : advance.principal.toNat ≤ ledger.livePrincipal.toNat
  deployedAmount : advance.principal.toNat ≤ pool.deployedAmount.toNat
  totalAssets : pool.totalAssets.toNat + split.lpFee.toNat < 2 ^ 64
  accruedProtocolFees : pool.accruedProtocolFees.toNat + split.protocolCut.toNat < 2 ^ 64

theorem Settles.hasRoom {accounts : ClaimAndSettle} {paymentAmount : UInt64} {advance : Advance}
    {consumed : ConsumedPayment} {ledger : AgentIssuanceLedger} {split : Waterfall}
    {s' : PoolState}
    (h : Settles rt env accounts paymentAmount s advance consumed ledger split s') :
    HasRoom s.pool ledger advance split := by
  obtain ⟨livePrincipal, hprincipal, -⟩ := h.closes.ledgers
  have hdeployed := h.closes.deployed
  constructor
  · omega
  · omega
  · rw [← h.assets]
    exact UInt64.toNat_lt _
  · rw [← h.accrued]
    exact UInt64.toNat_lt _

variable (env) in
/-- In the claim window, a settlement that its accounts admit can fail by its memo, the division
of the payment, the transfers and the counters. -/
theorem Admits.settles_iff {accounts : ClaimAndSettle} {advance : Advance}
    {consumed : ConsumedPayment} {ledger : AgentIssuanceLedger} {mint : Mint}
    {paymentAmount : UInt64} (h : Admits rt accounts s t advance consumed ledger mint)
    (hwindow : env.now.toInt < advance.expiresAt.toInt + liquidationGraceSeconds.toInt)
    (hwindowEnd : advance.expiresAt.toInt + liquidationGraceSeconds.toInt < 2 ^ 63) :
    (∃ effect, claimAndSettle rt env accounts paymentAmount s t = .ok effect) ↔
      requireMemoNonce env.sysvar consumed.nonce.toList = .ok () ∧
      ∃ split, waterfall advance env.now paymentAmount = .ok split ∧
        Payable accounts mint.decimals split t ∧ HasRoom s.pool ledger advance split := by
  constructor
  · rintro ⟨effect, heffect⟩
    obtain ⟨_, _, _, _, split, t₁, hadmits, hsettles, hfirst, hsecond, -⟩ :=
      claimAndSettle_eq_ok.mp heffect
    obtain ⟨rfl, rfl, rfl, rfl⟩ := h.unique hadmits
    exact ⟨hsettles.memo, split, hsettles.divided, ⟨t₁, effect.tokens, hfirst, hsecond⟩,
      hsettles.hasRoom⟩
  · rintro ⟨hmemo, split, hdivided, ⟨t₁, t₂, hfirst, hsecond⟩, hroom⟩
    obtain ⟨livePrincipal, hlivePrincipal⟩ := UInt64.exists_add_eq hroom.livePrincipal
    obtain ⟨deployedAmount, hdeployed⟩ := UInt64.exists_add_eq hroom.deployedAmount
    obtain ⟨totalAssets, hassets⟩ := UInt64.exists_toNat_eq hroom.totalAssets
    obtain ⟨accruedProtocolFees, haccrued⟩ := UInt64.exists_toNat_eq hroom.accruedProtocolFees
    let s' : PoolState := { s with
      pool := { s.pool with deployedAmount, totalAssets, accruedProtocolFees }
      advances := s.advances.erase (advance.agent, advance.receivableId)
      ledgers := s.ledgers.insert advance.agent { ledger with livePrincipal } }
    have hsettles :
        Settles rt env accounts paymentAmount s advance consumed ledger split s' := {
      live := h.live
      named := h.named
      payer := h.payer
      window := hwindow
      windowEnd := hwindowEnd
      memo := hmemo
      divided := hdivided
      closes := ⟨rfl, rfl, ⟨livePrincipal, hlivePrincipal, rfl⟩, hdeployed⟩
      assets := hassets
      accrued := haccrued
      pool := rfl
      tombstones := rfl }
    exact ⟨⟨s', t₂, _⟩, claimAndSettle_eq_ok.mpr ⟨advance, consumed, ledger, mint, split, t₁, h,
      hsettles, hfirst, hsecond, rfl⟩⟩

theorem Liquidate.tryAccounts_eq_ok {accounts : Liquidate} {advance : Advance}
    {consumed : ConsumedPayment} {ledger : AgentIssuanceLedger} :
    accounts.tryAccounts rt s = .ok (advance, consumed, ledger) ↔
      accounts.advance = ⟨accounts.pool, advance.agent, advance.receivableId⟩ ∧
      accounts.consumed = ⟨accounts.pool, advance.agent, advance.receivableId⟩ ∧
      accounts.issuanceLedger = ⟨accounts.pool, advance.agent⟩ ∧
      accounts.tombstone = ⟨accounts.pool, advance.agent, advance.receivableId⟩ ∧
      Live rt accounts.pool s advance consumed ledger ∧
      s.tombstones.lookup accounts.tombstone.key = none := by
  simp only [tryAccounts, bind_eq_ok, require_eq_ok, pure_eq_ok, Prod.exists, Prod.mk.injEq]
  constructor
  · rintro ⟨_, _, _, hread, -, htombstone, -, hfresh, ⟨⟩, hchecked, rfl, rfl, rfl⟩
    obtain ⟨hadvance, hconsumed, hledger, hlive⟩ :=
      readAdvance_and_requireAdvance_iff.mp ⟨hread, hchecked⟩
    exact ⟨hadvance, hconsumed, hledger, htombstone, hlive, hfresh⟩
  · rintro ⟨hadvance, hconsumed, hledger, htombstone, hlive, hfresh⟩
    obtain ⟨hread, hchecked⟩ :=
      readAdvance_and_requireAdvance_iff.mpr ⟨hadvance, hconsumed, hledger, hlive⟩
    exact ⟨advance, consumed, ledger, hread, (), htombstone, (), hfresh, (), hchecked, rfl, rfl,
      rfl⟩

/-- The accounts of a liquidation are those of the advance, and its grace period is over. -/
structure Overdue (now : Int64) (accounts : Liquidate) (advance : Advance) : Prop where
  named : accounts.advance = ⟨accounts.pool, advance.agent, advance.receivableId⟩
  consumedNamed : accounts.consumed = ⟨accounts.pool, advance.agent, advance.receivableId⟩
  ledgerNamed : accounts.issuanceLedger = ⟨accounts.pool, advance.agent⟩
  tombstoneNamed : accounts.tombstone = ⟨accounts.pool, advance.agent, advance.receivableId⟩
  window : advance.expiresAt.toInt + liquidationGraceSeconds.toInt ≤ now.toInt

/-- A liquidation writes nothing but the pool, the advances, the ledgers and the tombstones. -/
theorem Liquidates.state_eq {accounts : Liquidate} {advance : Advance}
    {consumed : ConsumedPayment} {ledger : AgentIssuanceLedger} {s' : PoolState}
    (h : Liquidates rt env accounts s advance consumed ledger s') :
    { s with
      pool := { s.pool with
        deployedAmount := s'.pool.deployedAmount
        totalAssets := s'.pool.totalAssets }
      advances := s.advances.erase (advance.agent, advance.receivableId)
      ledgers := s'.ledgers
      tombstones := s.tombstones.insert (advance.agent, advance.receivableId)
        (tombstoneOf rt env.now accounts.pool advance) } = s' := by
  rw [← h.pool, ← h.closes.advances, ← h.closes.consumed, ← h.tombstones]

/-- A liquidation in full. No token moves. -/
theorem liquidate_eq_ok {accounts : Liquidate} :
    liquidate rt env accounts s t = .ok effect ↔
      effect.tokens = t ∧ ∃ advance consumed ledger, Overdue env.now accounts advance ∧
        Liquidates rt env accounts s advance consumed ledger effect.state ∧
        effect.event = .advanceLiquidated accounts.pool advance.agent
          (rt.advancePda accounts.pool advance.agent advance.receivableId).1 advance.principal := by
  simp only [liquidate, bind_eq_ok, okOr_eq_ok, pure_eq_ok, Prod.exists,
    Liquidate.tryAccounts_eq_ok, UInt64.checkedSub_eq_some]
  constructor
  · rintro ⟨advance, consumed, ledger, ⟨hnamed, hconsumed, hledger, htombstone, hlive, hfresh⟩, ⟨⟩,
      hopen, livePrincipal, hprincipal, deployed, hdeployed, totalAssets, hassets, rfl⟩
    obtain ⟨-, hwindow⟩ := liquidationWindow_eq_ok.mp hopen
    rw [htombstone] at hfresh
    refine ⟨rfl, advance, consumed, ledger, ⟨hnamed, hconsumed, hledger, htombstone, hwindow⟩, ?_,
      rfl⟩
    exact {
      live := hlive
      named := hnamed
      window := hwindow
      closes := ⟨by rw [hnamed]; rfl, rfl, ⟨livePrincipal, hprincipal, rfl⟩, hdeployed⟩
      assets := hassets
      pool := rfl
      unburied := hfresh
      tombstones := by rw [htombstone]; rfl }
  · rintro ⟨htokens, advance, consumed, ledger, hoverdue, hliquidates, hevent⟩
    have hopen : liquidationWindow advance env.now = .ok () :=
      liquidationWindow_eq_ok.mpr
        ⟨hoverdue.window.trans_lt env.now.toInt_lt, hoverdue.window⟩
    obtain ⟨livePrincipal, hprincipal, hledgers⟩ := hliquidates.closes.ledgers
    have htombstone : accounts.tombstone.key = (advance.agent, advance.receivableId) :=
      congrArg AdvanceSeeds.key hoverdue.tombstoneNamed
    have hstate := hliquidates.state_eq
    rw [hledgers, ← hliquidates.key_eq] at hstate
    refine ⟨advance, consumed, ledger, ⟨hoverdue.named, hoverdue.consumedNamed,
      hoverdue.ledgerNamed, hoverdue.tombstoneNamed, hliquidates.live,
      htombstone ▸ hliquidates.unburied⟩, (), hopen, livePrincipal, hprincipal,
      effect.state.pool.deployedAmount, hliquidates.closes.deployed,
      effect.state.pool.totalAssets, hliquidates.assets, ?_⟩
    rw [htombstone, ← hliquidates.key_eq, hstate, ← htokens, ← hevent]

/-- A liquidation writes the principal off and leaves a tombstone; no token moves. -/
theorem liquidate_effect {accounts : Liquidate}
    (h : liquidate rt env accounts s t = .ok effect) :
    effect.tokens = t ∧ ∃ advance consumed ledger,
      Liquidates rt env accounts s advance consumed ledger effect.state := by
  obtain ⟨htokens, advance, consumed, ledger, -, hliquidates, -⟩ := liquidate_eq_ok.mp h
  exact ⟨htokens, advance, consumed, ledger, hliquidates⟩

/-- A live advance past its grace period is liquidated if the three counters hold its
principal. -/
theorem exists_liquidate {accounts : Liquidate} {advance : Advance} {consumed : ConsumedPayment}
    {ledger : AgentIssuanceLedger} (hlive : Live rt accounts.pool s advance consumed ledger)
    (hoverdue : Overdue env.now accounts advance)
    (hunburied : s.tombstones.lookup (advance.agent, advance.receivableId) = none)
    (hlivePrincipal : advance.principal.toNat ≤ ledger.livePrincipal.toNat)
    (hdeployed : advance.principal.toNat ≤ s.pool.deployedAmount.toNat)
    (hassets : advance.principal.toNat ≤ s.pool.totalAssets.toNat) :
    ∃ effect, liquidate rt env accounts s t = .ok effect := by
  obtain ⟨livePrincipal, hlivePrincipal'⟩ := UInt64.exists_add_eq hlivePrincipal
  obtain ⟨deployedAmount, hdeployed'⟩ := UInt64.exists_add_eq hdeployed
  obtain ⟨totalAssets, hassets'⟩ := UInt64.exists_add_eq hassets
  let s' : PoolState := { s with
    pool := { s.pool with deployedAmount, totalAssets }
    advances := s.advances.erase (advance.agent, advance.receivableId)
    ledgers := s.ledgers.insert advance.agent { ledger with livePrincipal }
    tombstones := s.tombstones.insert (advance.agent, advance.receivableId)
      (tombstoneOf rt env.now accounts.pool advance) }
  have hliquidates : Liquidates rt env accounts s advance consumed ledger s' := {
    live := hlive
    named := hoverdue.named
    window := hoverdue.window
    closes := ⟨rfl, rfl, ⟨livePrincipal, hlivePrincipal', rfl⟩, hdeployed'⟩
    assets := hassets'
    pool := rfl
    unburied := hunburied
    tombstones := rfl }
  exact ⟨⟨s', t, _⟩,
    liquidate_eq_ok.mpr ⟨rfl, advance, consumed, ledger, hoverdue, hliquidates, rfl⟩⟩

theorem overdue_of_liquidate {accounts : Liquidate}
    (h : liquidate rt env accounts s t = .ok effect) :
    ∃ advance, s.advances.lookup accounts.advance.key = some advance ∧
      Overdue env.now accounts advance ∧
      advance.principal.toNat ≤ s.pool.totalAssets.toNat := by
  obtain ⟨-, advance, consumed, ledger, hoverdue, hliquidates, -⟩ := liquidate_eq_ok.mp h
  have hassets := hliquidates.assets
  exact ⟨advance, hliquidates.stored, hoverdue, by omega⟩

end CredMesh.Escrow
