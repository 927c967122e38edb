import CredMesh.Escrow.Liquidity
import CredMesh.Registry.AttestorRegistry

/-!
# Issuing an advance

`request_advance` in the order of the source: the signed attestation is read and checked, the
agent's ledger is rolled and charged, the advance is priced, paid out and recorded.
-/

namespace CredMesh.Escrow

open Outcome Spl IxIntrospection CreditMessage ByteString

structure RequestAdvance where
  agent : Pubkey
  allowedSigner : Pubkey
  pool : Pubkey
  advance : AdvanceSeeds
  consumed : AdvanceSeeds
  issuanceLedger : LedgerSeeds
  poolUsdcVault : Pubkey
  agentUsdcAta : Pubkey
  usdcMint : Pubkey
  deriving DecidableEq

/-- The terms that a bridge signer attested. -/
structure Attestation where
  signer : Pubkey
  creditLimit : UInt64
  outstanding : UInt64
  expiresAt : Int64
  attestedAt : Int64
  deriving DecidableEq

/-- Parts (1) to (3): the attestation signed in the preceding instruction, checked against the
whitelisted signer, the caller, the pool, the nonce and the clock. -/
def readAttestation (env : Env) (allowed : Registry.AllowedSigner) (agent pool : Pubkey)
    (chainId : UInt64) (nonce : Bytes 16) : Except Error Attestation := do
  let (signedPubkey, signedMsg) ← (verifyPrevEd25519 env.sysvar).mapError fun error ↦
    match error with
    | .ed25519OffsetMismatch => Error.credmesh .ed25519MessageMismatch
    | _ => Error.credmesh .ed25519Missing
  require (signedMsg.length = totalLen) (.credmesh .ed25519MessageMismatch)
  require (signedPubkey = allowed.signer) (.credmesh .ed25519SignerUnknown)
  require (allowed.kind = AttestorKind.creditBridge.asU8) (.credmesh .ed25519SignerUnknown)
  require (pubkeyAt signedMsg agentOffset = agent) (.credmesh .ed25519MessageMismatch)
  require (pubkeyAt signedMsg poolOffset = pool) (.credmesh .ed25519MessageMismatch)
  let attestedCreditLimit := u64Le signedMsg creditLimitOffset
  let attestedOutstanding := u64Le signedMsg outstandingOffset
  let expiresAt := i64Le signedMsg expiresAtOffset
  let attestedAt := i64Le signedMsg attestedAtOffset
  require (u64Le signedMsg versionOffset = version) (.credmesh .ed25519MessageMismatch)
  require (slice signedMsg nonceOffset nonceLen = nonce.toList)
    (.credmesh .ed25519MessageMismatch)
  require (u64Le signedMsg chainIdOffset = chainId) (.credmesh .invalidChainId)
  require (attestedAt ≤ env.now) (.credmesh .receivableStale)
  let age ← okOr (env.now.checkedSub attestedAt) .panic
  require (age ≤ maxAttestationAgeSeconds) (.credmesh .receivableStale)
  require (env.now < expiresAt) (.credmesh .receivableExpired)
  pure {
    signer := signedPubkey
    creditLimit := attestedCreditLimit
    outstanding := attestedOutstanding
    expiresAt
    attestedAt }

/-- A ledger account as `init_if_needed` creates it. -/
def zeroedLedger : AgentIssuanceLedger where
  bump := 0
  agent := defaultPubkey
  pool := defaultPubkey
  windowStart := 0
  issuedInWindow := 0
  livePrincipal := 0

/-- A fresh ledger is bound to its agent and pool and starts its first window. -/
def bindLedger (bump : UInt8) (agent pool : Pubkey) (now : Int64)
    (ledger : AgentIssuanceLedger) : AgentIssuanceLedger :=
  if ledger.bump = 0 then
    { ledger with bump, agent, pool, windowStart := now, issuedInWindow := 0 }
  else ledger

/-- A window that has run out is replaced by one that starts now and has issued nothing. -/
def rollWindow (now : Int64) (ledger : AgentIssuanceLedger) : AgentIssuanceLedger :=
  if agentWindowSeconds ≤ now.saturatingSub ledger.windowStart then
    { ledger with windowStart := now, issuedInWindow := 0 }
  else ledger

/-- Part (4): charge the window and enforce its cap. -/
def chargeWindow (agentWindowCap amount : UInt64) (ledger : AgentIssuanceLedger) :
    Except Error AgentIssuanceLedger := do
  let newIssued ← okOr (ledger.issuedInWindow.checkedAdd amount) (.credmesh .mathOverflow)
  require (0 < agentWindowCap → newIssued ≤ agentWindowCap) (.credmesh .agentWindowCapExceeded)
  pure { ledger with issuedInWindow := newIssued }

/-- Part (4b): underwrite against the attested limit and charge the live principal. -/
def underwrite (attestation : Attestation) (maxAdvanceAbs amount : UInt64)
    (ledger : AgentIssuanceLedger) : Except Error AgentIssuanceLedger := do
  let combinedOutstanding ← okOr (attestation.outstanding.checkedAdd ledger.livePrincipal)
    (.credmesh .mathOverflow)
  let availableCredit := attestation.creditLimit.saturatingSub combinedOutstanding
  require (amount ≤ availableCredit) (.credmesh .advanceExceedsCredit)
  require (amount ≤ maxAdvanceAbs) (.credmesh .advanceExceedsCap)
  let livePrincipal ← okOr (ledger.livePrincipal.checkedAdd amount) (.credmesh .mathOverflow)
  pure { ledger with livePrincipal }

/-- Parts (4) and (4b): what an issuance leaves in the ledger. -/
def chargeLedger (bump : UInt8) (agent poolKey : Pubkey) (pool : Pool) (now : Int64)
    (attestation : Attestation) (amount : UInt64) (ledger : AgentIssuanceLedger) :
    Except Error AgentIssuanceLedger := do
  let ledger := rollWindow now (bindLedger bump agent poolKey now ledger)
  let ledger ← chargeWindow pool.agentWindowCap amount ledger
  underwrite attestation pool.maxAdvanceAbs amount ledger

/-- Part (5): the fee and the late penalty per day. -/
def priceAdvance (pool : Pool) (amount : UInt64) (now expiresAt : Int64) :
    Except Error (UInt64 × UInt64) := do
  let durationSeconds := (max (expiresAt.saturatingSub now) 0).toUInt64
  let utilization ← computeUtilizationBps pool
  let feeOwed ← computeFeeAmount amount durationSeconds utilization 0 pool.feeCurve
  let latePenaltyPerDay ← computeLatePenaltyPerDay amount pool.feeCurve
  pure (feeOwed, latePenaltyPerDay)

variable (rt : Runtime)

/-- The constraints `init_if_needed` and `associated_token` of a wallet's token account. -/
def initAssociatedTokenAccount (address wallet mint : Pubkey) (t : TokenLedger) :
    Except Error TokenLedger := do
  require (address = rt.associatedTokenAddress wallet mint) (.anchor .constraintAssociated)
  match t.accounts.lookup address with
  | some account => do
      require (account.mint = mint) (.anchor .constraintTokenMint)
      require (account.owner = wallet) (.anchor .constraintTokenOwner)
      pure t
  | none => (initializeAccount address mint wallet t).mapError .token

/-- What exists is read first, then the new accounts are created, and the constraints on the others
come last. -/
def RequestAdvance.tryAccounts (accounts : RequestAdvance) (receivableId : Bytes 32)
    (r : Registry.RegistryState) (s : PoolState) (t : TokenLedger) :
    Except Error (Registry.AllowedSigner × AgentIssuanceLedger × Mint × TokenLedger) := do
  let allowed ← Registry.loadAllowedSigner rt accounts.allowedSigner r
  let _ ← tokenAccount t accounts.poolUsdcVault
  let usdcMint ← mintAccount t accounts.usdcMint
  let seeds : AdvanceSeeds := ⟨accounts.pool, accounts.agent, receivableId⟩
  require (accounts.advance = seeds) (.anchor .constraintSeeds)
  require (s.advances.lookup seeds.key = none) (.anchor .accountAlreadyInUse)
  require (accounts.consumed = seeds) (.anchor .constraintSeeds)
  require (s.consumed.lookup seeds.key = none) (.anchor .accountAlreadyInUse)
  require (accounts.issuanceLedger = ⟨accounts.pool, accounts.agent⟩) (.anchor .constraintSeeds)
  let ledger := (s.ledgers.lookup accounts.agent).getD zeroedLedger
  let t ← initAssociatedTokenAccount rt accounts.agentUsdcAta accounts.agent accounts.usdcMint t
  requireAddress accounts.poolUsdcVault s.pool.usdcVault
  requireAddress accounts.usdcMint s.pool.assetMint
  pure (allowed, ledger, usdcMint, t)

/-- Part (7): the account of the new advance. -/
def issuedAdvance (now : Int64) (accounts : RequestAdvance) (receivableId : Bytes 32)
    (amount feeOwed latePenaltyPerDay : UInt64) (attestation : Attestation) : Advance where
  bump := (rt.advancePda accounts.pool accounts.agent receivableId).2
  agent := accounts.agent
  receivableId
  principal := amount
  feeOwed
  latePenaltyPerDay
  issuedAt := now
  expiresAt := attestation.expiresAt
  attestor := attestation.signer
  state := .issued

def consumedPayment (now : Int64) (accounts : RequestAdvance) (receivableId : Bytes 32)
    (nonce : Bytes 16) : ConsumedPayment where
  bump := (rt.consumedPda accounts.pool accounts.agent receivableId).2
  nonce
  agent := accounts.agent
  createdAt := now

def requestAdvance (env : Env) (accounts : RequestAdvance) (receivableId : Bytes 32)
    (amount : UInt64) (nonce : Bytes 16) (r : Registry.RegistryState) (s : PoolState)
    (t : TokenLedger) : Except Error Effect := do
  let (allowed, ledger, usdcMint, t) ← accounts.tryAccounts rt receivableId r s t
  require (minAdvanceAtoms ≤ amount) (.credmesh .advanceExceedsCap)
  let attestation ← readAttestation env allowed accounts.agent accounts.pool s.pool.chainId nonce
  let bump := (rt.issuanceLedgerPda accounts.pool accounts.agent).2
  let ledger ← chargeLedger bump accounts.agent accounts.pool s.pool env.now attestation amount
    ledger
  let (feeOwed, latePenaltyPerDay) ← priceAdvance s.pool amount env.now attestation.expiresAt
  let t ← (transferChecked accounts.poolUsdcVault accounts.usdcMint accounts.agentUsdcAta
    accounts.pool amount usdcMint.decimals t).mapError .token
  let advance := issuedAdvance rt env.now accounts receivableId amount feeOwed latePenaltyPerDay
    attestation
  let consumed := consumedPayment rt env.now accounts receivableId nonce
  let deployedAmount ← okOr (s.pool.deployedAmount.checkedAdd amount) (.credmesh .mathOverflow)
  require (deployedAmount ≤ s.pool.totalAssets) (.credmesh .insufficientIdleLiquidity)
  let key := (accounts.agent, receivableId)
  pure {
    state := { s with
      pool := { s.pool with deployedAmount }
      advances := s.advances.insert key advance
      consumed := s.consumed.insert key consumed
      ledgers := s.ledgers.insert accounts.agent ledger }
    tokens := t
    event := .advanceIssued accounts.pool accounts.agent
      (rt.advancePda accounts.pool accounts.agent receivableId).1 amount feeOwed
      attestation.expiresAt attestation.signer }

/-! ## Effects -/

variable {rt} {env : Env} {accounts : RequestAdvance} {receivableId : Bytes 32} {amount : UInt64}
  {nonce : Bytes 16} {r : Registry.RegistryState} {s : PoolState} {t : TokenLedger}
  {effect : Effect}

/-- The message carries the terms, for this agent, pool, cluster and nonce. -/
structure Carries (message : List UInt8) (agent pool : Pubkey) (chainId : UInt64)
    (nonce : Bytes 16) (attestation : Attestation) : Prop where
  length : message.length = totalLen
  agent : pubkeyAt message agentOffset = agent
  pool : pubkeyAt message poolOffset = pool
  creditLimit : u64Le message creditLimitOffset = attestation.creditLimit
  outstanding : u64Le message outstandingOffset = attestation.outstanding
  expiresAt : i64Le message expiresAtOffset = attestation.expiresAt
  attestedAt : i64Le message attestedAtOffset = attestation.attestedAt
  nonce : slice message nonceOffset nonceLen = nonce.toList
  chainId : u64Le message chainIdOffset = chainId
  version : u64Le message versionOffset = version

/-- The terms come from a message verified under the whitelisted key, attested in the last fifteen
minutes and not expired. -/
theorem readAttestation_carries {allowed : Registry.AllowedSigner} {agent pool : Pubkey}
    {chainId : UInt64} {attestation : Attestation}
    (h : readAttestation env allowed agent pool chainId nonce = .ok attestation) :
    ∃ message, verifyPrevEd25519 env.sysvar = .ok (attestation.signer, message) ∧
      Carries message agent pool chainId nonce attestation ∧
      attestation.signer = allowed.signer ∧ allowed.kind = AttestorKind.creditBridge.asU8 ∧
      attestation.attestedAt.toInt ≤ env.now.toInt ∧
      env.now.toInt - attestation.attestedAt.toInt ≤ 900 ∧
      env.now.toInt < attestation.expiresAt.toInt := by
  simp only [readAttestation, bind_eq_ok, okOr_eq_ok, require_eq_ok, mapError_eq_ok, pure_eq_ok,
    Prod.exists, Int64.checkedSub_eq_some] at h
  obtain ⟨key, message, hverified, -, hlength, -, hsigner, -, hkind, -, hagent, -, hpool, -,
    hversion, -, hnonce, -, hchain, -, hpast, age, hage, -, hfresh, -, hexpiry, rfl⟩ := h
  have hfresh := Int64.le_iff_toInt_le.mp hfresh
  rw [hage] at hfresh
  exact ⟨message, hverified, ⟨hlength, hagent, hpool, rfl, rfl, rfl, rfl, hnonce, hchain, hversion⟩,
    hsigner, hkind, Int64.le_iff_toInt_le.mp hpast, hfresh, Int64.lt_iff_toInt_lt.mp hexpiry⟩

section Ledger

variable (bump : UInt8) (agent poolKey : Pubkey) (now : Int64) (ledger : AgentIssuanceLedger)

@[simp]
theorem rollWindow_bump : (rollWindow now ledger).bump = ledger.bump := by
  unfold rollWindow
  split <;> rfl

@[simp]
theorem rollWindow_agent : (rollWindow now ledger).agent = ledger.agent := by
  unfold rollWindow
  split <;> rfl

@[simp]
theorem rollWindow_pool : (rollWindow now ledger).pool = ledger.pool := by
  unfold rollWindow
  split <;> rfl

@[simp]
theorem rollWindow_livePrincipal :
    (rollWindow now ledger).livePrincipal = ledger.livePrincipal := by
  unfold rollWindow
  split <;> rfl

@[simp]
theorem bindLedger_livePrincipal :
    (bindLedger bump agent poolKey now ledger).livePrincipal = ledger.livePrincipal := by
  unfold bindLedger
  split <;> rfl

end Ledger

/-- What charging an issuance to a ledger does, given the ledger with its window rolled. -/
structure Charges (pool : Pool) (attestation : Attestation) (amount : UInt64)
    (opened ledger' : AgentIssuanceLedger) : Prop where
  bound : ledger'.bump = opened.bump ∧ ledger'.agent = opened.agent ∧ ledger'.pool = opened.pool
  windowStart : ledger'.windowStart = opened.windowStart
  issued : ledger'.issuedInWindow.toNat = opened.issuedInWindow.toNat + amount.toNat
  capped : 0 < pool.agentWindowCap → ledger'.issuedInWindow ≤ pool.agentWindowCap
  live : ledger'.livePrincipal.toNat = opened.livePrincipal.toNat + amount.toNat
  underwritten : attestation.outstanding.toNat + opened.livePrincipal.toNat + amount.toNat ≤
    attestation.creditLimit.toNat
  bounded : amount ≤ pool.maxAdvanceAbs

theorem chargeLedger_charges {bump : UInt8} {agent poolKey : Pubkey} {pool : Pool} {now : Int64}
    {attestation : Attestation} {ledger ledger' : AgentIssuanceLedger}
    (hfloor : minAdvanceAtoms ≤ amount)
    (h : chargeLedger bump agent poolKey pool now attestation amount ledger = .ok ledger') :
    Charges pool attestation amount (rollWindow now (bindLedger bump agent poolKey now ledger))
      ledger' := by
  simp only [chargeLedger, chargeWindow, underwrite, bind_eq_ok, okOr_eq_ok, require_eq_ok,
    pure_eq_ok, UInt64.checkedAdd_eq_some] at h
  obtain ⟨_, ⟨newIssued, hissued, -, hcap, rfl⟩, combined, hcombined, -, hcredit, -, hmax, live,
    hlive, rfl⟩ := h
  have hpositive : 0 < amount.toNat :=
    Nat.lt_of_lt_of_le (by decide) (UInt64.le_iff_toNat_le.mp hfloor)
  have hcredit := UInt64.le_iff_toNat_le.mp hcredit
  rw [UInt64.toNat_saturatingSub] at hcredit
  exact ⟨⟨rfl, rfl, rfl⟩, rfl, hissued, hcap, hlive, by dsimp only at *; omega, hmax⟩

/-- A successful `request_advance`, with the attestation it used, the ledger it left and the
advance it recorded. -/
structure Issues (rt : Runtime) (env : Env) (accounts : RequestAdvance) (receivableId : Bytes 32)
    (amount : UInt64) (nonce : Bytes 16) (r : Registry.RegistryState) (s : PoolState)
    (attestation : Attestation) (ledger : AgentIssuanceLedger) (advance : Advance)
    (s' : PoolState) : Prop where
  attested : ∃ allowed, Registry.loadAllowedSigner rt accounts.allowedSigner r = .ok allowed ∧
    readAttestation env allowed accounts.agent accounts.pool s.pool.chainId nonce =
      .ok attestation
  floor : minAdvanceAtoms ≤ amount
  unissued : s.advances.lookup (accounts.agent, receivableId) = none
  unconsumed : s.consumed.lookup (accounts.agent, receivableId) = none
  charged : chargeLedger (rt.issuanceLedgerPda accounts.pool accounts.agent).2 accounts.agent
    accounts.pool s.pool env.now attestation amount
    ((s.ledgers.lookup accounts.agent).getD zeroedLedger) = .ok ledger
  priced : priceAdvance s.pool amount env.now attestation.expiresAt =
    .ok (advance.feeOwed, advance.latePenaltyPerDay)
  recorded : advance = issuedAdvance rt env.now accounts receivableId amount advance.feeOwed
    advance.latePenaltyPerDay attestation
  deployed : s'.pool.deployedAmount.toNat = s.pool.deployedAmount.toNat + amount.toNat
  covered : s'.pool.deployedAmount ≤ s.pool.totalAssets
  pool : s'.pool = { s.pool with deployedAmount := s'.pool.deployedAmount }
  advances : s'.advances = s.advances.insert (accounts.agent, receivableId) advance
  consumed : s'.consumed = s.consumed.insert (accounts.agent, receivableId)
    (consumedPayment rt env.now accounts receivableId nonce)
  ledgers : s'.ledgers = s.ledgers.insert accounts.agent ledger
  tombstones : s'.tombstones = s.tombstones

theorem Issues.totalAssets {attestation : Attestation} {ledger : AgentIssuanceLedger}
    {advance : Advance} {s' : PoolState}
    (h : Issues rt env accounts receivableId amount nonce r s attestation ledger advance s') :
    s'.pool.totalAssets = s.pool.totalAssets := by
  rw [h.pool]

/-- The charge to the ledger, from the ledger found or created. -/
theorem Issues.charges {attestation : Attestation} {ledger : AgentIssuanceLedger}
    {advance : Advance} {s' : PoolState}
    (h : Issues rt env accounts receivableId amount nonce r s attestation ledger advance s') :
    Charges s.pool attestation amount
      (rollWindow env.now (bindLedger (rt.issuanceLedgerPda accounts.pool accounts.agent).2
        accounts.agent accounts.pool env.now
        ((s.ledgers.lookup accounts.agent).getD zeroedLedger))) ledger :=
  chargeLedger_charges h.floor h.charged

/-- After the constraint the wallet owns the account, and nothing has moved. -/
theorem initAssociatedTokenAccount_flow {address wallet mint : Pubkey} {t' : TokenLedger}
    (h : initAssociatedTokenAccount rt address wallet mint t = .ok t') :
    t'.IsAccount address mint wallet ∧ Flow t t' 0 0 0 0 := by
  simp only [initAssociatedTokenAccount, bind_eq_ok, require_eq_ok] at h
  obtain ⟨-, -, h⟩ := h
  split at h
  case h_1 account hfound =>
    simp only [bind_eq_ok, require_eq_ok, pure_eq_ok] at h
    obtain ⟨-, hmint, -, howner, rfl⟩ := h
    exact ⟨⟨account, hfound, hmint, howner⟩, Flow.refl t⟩
  case h_2 =>
    obtain ⟨-, hfound, hflow⟩ := initializeAccount_flow (mapError_eq_ok.mp h)
    exact ⟨⟨_, hfound, rfl, rfl⟩, hflow⟩

theorem Issues.state_eq {attestation : Attestation} {ledger : AgentIssuanceLedger}
    {advance : Advance} {s' : PoolState}
    (h : Issues rt env accounts receivableId amount nonce r s attestation ledger advance s') :
    { s with
      pool := { s.pool with deployedAmount := s'.pool.deployedAmount }
      advances := s.advances.insert (accounts.agent, receivableId) advance
      consumed := s.consumed.insert (accounts.agent, receivableId)
        (consumedPayment rt env.now accounts receivableId nonce)
      ledgers := s.ledgers.insert accounts.agent ledger } = s' := by
  rw [← h.pool, ← h.advances, ← h.consumed, ← h.ledgers, ← h.tombstones]

/-- The account constraints of an issuance, with the mint it reads and the token ledger in which
the agent's account exists. -/
structure Opens (rt : Runtime) (accounts : RequestAdvance) (receivableId : Bytes 32)
    (s : PoolState) (t : TokenLedger) (mint : Mint) (t' : TokenLedger) : Prop where
  advance : accounts.advance = ⟨accounts.pool, accounts.agent, receivableId⟩
  unissued : s.advances.lookup (accounts.agent, receivableId) = none
  consumed : accounts.consumed = ⟨accounts.pool, accounts.agent, receivableId⟩
  unconsumed : s.consumed.lookup (accounts.agent, receivableId) = none
  issuanceLedger : accounts.issuanceLedger = ⟨accounts.pool, accounts.agent⟩
  vault : accounts.poolUsdcVault = s.pool.usdcVault
  vaultFound : ∃ account, t.accounts.lookup accounts.poolUsdcVault = some account
  asset : accounts.usdcMint = s.pool.assetMint
  assetFound : t.mints.lookup accounts.usdcMint = some mint
  opened : initAssociatedTokenAccount rt accounts.agentUsdcAta accounts.agent accounts.usdcMint t =
    .ok t'

theorem RequestAdvance.tryAccounts_eq_ok {allowed : Registry.AllowedSigner}
    {ledger : AgentIssuanceLedger} {mint : Mint} {t' : TokenLedger} :
    accounts.tryAccounts rt receivableId r s t = .ok (allowed, ledger, mint, t') ↔
      Registry.loadAllowedSigner rt accounts.allowedSigner r = .ok allowed ∧
      ledger = (s.ledgers.lookup accounts.agent).getD zeroedLedger ∧
      Opens rt accounts receivableId s t mint t' := by
  simp only [RequestAdvance.tryAccounts, requireAddress, tokenAccount, mintAccount, bind_eq_ok,
    okOr_eq_ok, require_eq_ok, pure_eq_ok, Prod.mk.injEq]
  constructor
  · rintro ⟨_, hallowed, vault, hvaultFound, _, hmint, -, hadvance, -, hunissued, -, hconsumed, -,
      hunconsumed, -, hledger, _, hopened, -, hvault, -, hasset, rfl, rfl, rfl, rfl⟩
    exact ⟨hallowed, rfl, ⟨hadvance, hunissued, hconsumed, hunconsumed, hledger, hvault,
      ⟨vault, hvaultFound⟩, hasset, hmint, hopened⟩⟩
  · rintro ⟨hallowed, rfl, hopens⟩
    obtain ⟨vault, hvault⟩ := hopens.vaultFound
    exact ⟨allowed, hallowed, vault, hvault, mint, hopens.assetFound, (), hopens.advance, (),
      hopens.unissued, (), hopens.consumed, (), hopens.unconsumed, (), hopens.issuanceLedger, t',
      hopens.opened, (), hopens.vault, (), hopens.asset, rfl, rfl, rfl, rfl⟩

/-- An issuance in full: what its accounts admit, what it writes, moves and emits. -/
theorem requestAdvance_eq_ok :
    requestAdvance rt env accounts receivableId amount nonce r s t = .ok effect ↔
      ∃ attestation ledger advance mint t₁,
        Opens rt accounts receivableId s t mint t₁ ∧
        Issues rt env accounts receivableId amount nonce r s attestation ledger advance
          effect.state ∧
        transferChecked accounts.poolUsdcVault accounts.usdcMint accounts.agentUsdcAta
          accounts.pool amount mint.decimals t₁ = .ok effect.tokens ∧
        effect.event = .advanceIssued accounts.pool accounts.agent
          (rt.advancePda accounts.pool accounts.agent receivableId).1 amount advance.feeOwed
          attestation.expiresAt attestation.signer := by
  simp only [requestAdvance, bind_eq_ok, okOr_eq_ok, require_eq_ok, mapError_eq_ok, pure_eq_ok,
    UInt64.checkedAdd_eq_some, Prod.exists, RequestAdvance.tryAccounts_eq_ok]
  constructor
  · rintro ⟨allowed, _, mint, t₁, ⟨hallowed, rfl, hopens⟩, -, hfloor, attestation, hread, ledger,
      hledger, feeOwed, latePenaltyPerDay, hprice, t₂, htransfer, deployed, hdeployed, -, hcovered,
      rfl⟩
    refine ⟨attestation, ledger, issuedAdvance rt env.now accounts receivableId amount feeOwed
      latePenaltyPerDay attestation, mint, t₁, hopens, ?_, htransfer, rfl⟩
    exact {
      attested := ⟨allowed, hallowed, hread⟩
      floor := hfloor
      unissued := hopens.unissued
      unconsumed := hopens.unconsumed
      charged := hledger
      priced := hprice
      recorded := rfl
      deployed := hdeployed
      covered := hcovered
      pool := rfl
      advances := rfl
      consumed := rfl
      ledgers := rfl
      tombstones := rfl }
  · rintro ⟨attestation, ledger, advance, mint, t₁, hopens, hissues, htransfer, hevent⟩
    obtain ⟨allowed, hallowed, hread⟩ := hissues.attested
    refine ⟨allowed, _, mint, t₁, ⟨hallowed, rfl, hopens⟩, (), hissues.floor, attestation, hread,
      ledger, hissues.charged, advance.feeOwed, advance.latePenaltyPerDay, hissues.priced,
      effect.tokens, htransfer, effect.state.pool.deployedAmount, hissues.deployed, (),
      hissues.covered, ?_⟩
    rw [← hissues.recorded, hissues.state_eq, ← hevent]

/-- An issuance pays the principal out of the vault to the agent and records it. -/
theorem requestAdvance_effect
    (h : requestAdvance rt env accounts receivableId amount nonce r s t = .ok effect) :
    ∃ attestation ledger advance,
      Issues rt env accounts receivableId amount nonce r s attestation ledger advance
        effect.state ∧
      effect.tokens.IsAccount accounts.agentUsdcAta s.pool.assetMint accounts.agent ∧
      Flow t effect.tokens (Pi.single s.pool.usdcVault amount.toNat)
        (Pi.single accounts.agentUsdcAta amount.toNat) 0 0 := by
  obtain ⟨attestation, ledger, advance, mint, t₁, hopens, hissues, htransfer, -⟩ :=
    requestAdvance_eq_ok.mp h
  obtain ⟨howner, hflow₁⟩ := initAssociatedTokenAccount_flow hopens.opened
  have hflow₂ := transferChecked_flow htransfer
  have hflow := hflow₁.trans hflow₂
  rw [hopens.vault, zero_add, zero_add, zero_add] at hflow
  rw [hopens.asset] at howner
  exact ⟨attestation, ledger, advance, hissues, hflow₂.persists.account _ _ _ howner, hflow⟩

end CredMesh.Escrow
