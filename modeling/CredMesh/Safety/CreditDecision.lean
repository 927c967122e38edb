import CredMesh.Chain.Acceptance
import CredMesh.Safety.AccountData
import CredMesh.Safety.FeeFunction
import CredMesh.Safety.IssuanceWindow
import CredMesh.Safety.Terms

/-!
# The credit decision

Whether an agent gets an advance is decided by a fresh attestation, an unused receivable and six
limits on the amount. Whatever else the escrow checks or computes on the way, the fee in particular,
never refuses a request: the curve of the pool is valid and its counters are exact.
-/

namespace CredMesh

open Outcome Escrow Spl Registry IxIntrospection TumblingWindow

namespace Escrow

/-! ## Pricing never refuses -/

theorem exists_computeUtilizationBps {pool : Pool} (h : pool.deployedAmount ≤ pool.totalAssets) :
    ∃ utilization, computeUtilizationBps pool = .ok utilization ∧ utilization.toNat ≤ 10000 := by
  have hdeployed := UInt64.le_iff_toNat_le.mp h
  have htotal := pool.totalAssets.toNat_lt
  unfold computeUtilizationBps
  by_cases hempty : pool.totalAssets = 0
  · rw [if_pos hempty]
    exact ⟨bpsDenominator, rfl, le_rfl⟩
  · have hpositive : 0 < pool.totalAssets.toNat :=
      Nat.pos_of_ne_zero fun hzero ↦ hempty (UInt64.toNat_inj.mp hzero)
    have hbound : pool.deployedAmount.toNat * 10000 / pool.totalAssets.toNat ≤ 10000 := by
      apply Nat.div_le_of_le_mul
      exact Nat.mul_le_mul_right _ hdeployed
    obtain ⟨utilization, hutilization⟩ := UInt64.exists_toNat_eq
      (show pool.deployedAmount.toNat * 10000 / pool.totalAssets.toNat < 2 ^ 64 by omega)
    rw [if_neg hempty]
    refine ⟨utilization, ?_, by omega⟩
    simp only [bind_eq_ok, okOr_eq_ok, pure_eq_ok, U128.checkedMul_eq_some,
      U128.checkedDiv_eq_some, bpsDenominator_toNat]
    refine ⟨_, ⟨by omega, rfl⟩, _, ⟨hpositive.ne', rfl⟩, ?_⟩
    rw [UInt64.tryFrom_eq_some.mpr hutilization, Option.getD_some]

theorem exists_computeLatePenaltyPerDay (principal : UInt64) (curve : FeeCurve) :
    ∃ penalty, computeLatePenaltyPerDay principal curve = .ok penalty := by
  have hprincipal := principal.toNat_lt
  have hsurcharge := curve.poolLossSurchargeBps.toNat_lt
  have hraised : principal.toNat * 10 / 10000 * (10000 + curve.poolLossSurchargeBps.toNat) ≤
      principal.toNat * 10 / 10000 * 75535 := Nat.mul_le_mul_left _ (by omega)
  by_cases hzero : 0 < curve.poolLossSurchargeBps.toNat
  · obtain ⟨penalty, hpenalty⟩ := UInt64.exists_toNat_eq (show principal.toNat * 10 / 10000 *
      (10000 + curve.poolLossSurchargeBps.toNat) / 10000 < 2 ^ 64 by omega)
    refine ⟨penalty, ?_⟩
    simp only [computeLatePenaltyPerDay, bind_eq_ok, okOr_eq_ok, U128.checkedMul_eq_some,
      U128.checkedDiv_eq_some, UInt64.tryFrom_eq_some, bpsDenominator_toNat, if_pos hzero]
    exact ⟨_, ⟨by omega, rfl⟩, _, ⟨by decide, rfl⟩, _, ⟨by omega, rfl⟩, _, ⟨by decide, rfl⟩,
      hpenalty⟩
  · obtain ⟨penalty, hpenalty⟩ := UInt64.exists_toNat_eq
      (show principal.toNat * 10 / 10000 < 2 ^ 64 by omega)
    refine ⟨penalty, ?_⟩
    simp only [computeLatePenaltyPerDay, bind_eq_ok, okOr_eq_ok, pure_eq_ok,
      U128.checkedMul_eq_some, U128.checkedDiv_eq_some, UInt64.tryFrom_eq_some,
      bpsDenominator_toNat, if_neg hzero]
    exact ⟨_, ⟨by omega, rfl⟩, _, ⟨by decide, rfl⟩, _, rfl, hpenalty⟩

theorem exists_priceAdvance {pool : Pool} (hvalid : pool.feeCurve.validate = .ok ())
    (hdeployed : pool.deployedAmount ≤ pool.totalAssets) (amount : UInt64)
    (now expiresAt : Int64) :
    ∃ feeOwed latePenaltyPerDay,
      priceAdvance pool amount now expiresAt = .ok (feeOwed, latePenaltyPerDay) := by
  obtain ⟨utilization, hutilization, hrange⟩ := exists_computeUtilizationBps hdeployed
  obtain ⟨feeOwed, hfee⟩ := exists_computeFeeAmount hvalid hrange amount
    (max (expiresAt.saturatingSub now) 0).toUInt64 0
  obtain ⟨latePenaltyPerDay, hpenalty⟩ := exists_computeLatePenaltyPerDay amount pool.feeCurve
  refine ⟨feeOwed, latePenaltyPerDay, ?_⟩
  simp only [priceAdvance, bind_eq_ok, pure_eq_ok]
  exact ⟨utilization, hutilization, feeOwed, hfee, latePenaltyPerDay, hpenalty, rfl⟩

/-! ## The limits -/

/-- What an agent may be issued in one window: everything, if there is no cap. -/
def Pool.windowLimit (pool : Pool) : ℕ :=
  if pool.agentWindowCap = 0 then 2 ^ 64 - 1 else pool.agentWindowCap.toNat

/-- What a ledger with its window rolled has room for. -/
theorem chargeLedger_iff {bump : UInt8} {agent poolKey : Pubkey} {pool : Pool} {now : Int64}
    {terms : Attestation} {amount : UInt64} {ledger : AgentIssuanceLedger}
    (hfloor : minAdvanceAtoms ≤ amount) :
    (∃ ledger', chargeLedger bump agent poolKey pool now terms amount ledger = .ok ledger') ↔
      (rollWindow now (bindLedger bump agent poolKey now ledger)).issuedInWindow.toNat +
        amount.toNat ≤ pool.windowLimit ∧
      terms.outstanding.toNat + ledger.livePrincipal.toNat + amount.toNat ≤
        terms.creditLimit.toNat ∧
      amount ≤ pool.maxAdvanceAbs := by
  constructor
  · rintro ⟨ledger', hledger⟩
    have hcharges := chargeLedger_charges hfloor hledger
    have hunderwritten := hcharges.underwritten
    rw [rollWindow_livePrincipal, bindLedger_livePrincipal] at hunderwritten
    refine ⟨?_, hunderwritten, hcharges.bounded⟩
    rw [← hcharges.issued, Pool.windowLimit]
    split
    case isTrue => exact Nat.le_sub_one_of_lt ledger'.issuedInWindow.toNat_lt
    case isFalse hcap =>
      exact UInt64.le_iff_toNat_le.mp (hcharges.capped (UInt64.pos_iff_ne_zero.mpr hcap))
  · rintro ⟨hwindow, hcredit, hmax⟩
    have hlimit := terms.creditLimit.toNat_lt
    have hcap : pool.windowLimit < 2 ^ 64 := by
      have hcap := pool.agentWindowCap.toNat_lt
      unfold Pool.windowLimit
      split <;> omega
    obtain ⟨issued, hissued⟩ := UInt64.exists_toNat_eq (hwindow.trans_lt hcap)
    obtain ⟨combined, hcombined⟩ := UInt64.exists_toNat_eq
      (show terms.outstanding.toNat + ledger.livePrincipal.toNat < 2 ^ 64 by omega)
    obtain ⟨live, hlive⟩ := UInt64.exists_toNat_eq
      (show ledger.livePrincipal.toNat + amount.toNat < 2 ^ 64 by omega)
    simp only [chargeLedger, chargeWindow, underwrite, bind_eq_ok, okOr_eq_ok, require_eq_ok,
      pure_eq_ok, UInt64.checkedAdd_eq_some]
    refine ⟨_, _, ⟨issued, hissued, (), fun hcapped ↦ ?_, rfl⟩, combined, ?_, (), ?_, (), hmax,
      live, ?_, rfl⟩
    · rw [Pool.windowLimit, if_neg (UInt64.pos_iff_ne_zero.mp hcapped), ← hissued] at hwindow
      exact UInt64.le_iff_toNat_le.mpr hwindow
    · simp only [rollWindow_livePrincipal, bindLedger_livePrincipal]
      exact hcombined
    · rw [UInt64.le_iff_toNat_le, UInt64.toNat_saturatingSub, hcombined]
      omega
    · simp only [rollWindow_livePrincipal, bindLedger_livePrincipal]
      exact hlive

/-! ## The decision -/

variable {rt : Runtime} {env : Env} {accounts : RequestAdvance} {receivableId : Bytes 32}
  {amount : UInt64} {nonce : Bytes 16} {terms : Attestation}

/-- The accounts of a request are those of its agent, pool and receivable, and the agent can be
paid: it has an account or can be given one, and neither the account nor the vault is frozen. -/
structure RequestReady (rt : Runtime) (accounts : RequestAdvance) (receivableId : Bytes 32)
    (pool : Pool) (t : TokenLedger) : Prop where
  advance : accounts.advance = ⟨accounts.pool, accounts.agent, receivableId⟩
  consumed : accounts.consumed = ⟨accounts.pool, accounts.agent, receivableId⟩
  issuanceLedger : accounts.issuanceLedger = ⟨accounts.pool, accounts.agent⟩
  vault : accounts.poolUsdcVault = pool.usdcVault
  asset : accounts.usdcMint = pool.assetMint
  associated : accounts.agentUsdcAta = rt.associatedTokenAddress accounts.agent pool.assetMint
  wallet : t.IsAccount accounts.agentUsdcAta pool.assetMint accounts.agent ∨
    t.mints.lookup accounts.agentUsdcAta = none ∧ t.accounts.lookup accounts.agentUsdcAta = none
  walletThawed : ¬ t.IsFrozen accounts.agentUsdcAta
  vaultThawed : ¬ t.IsFrozen pool.usdcVault

/-- The instruction before the request proves that a bridge on the whitelist signed these terms for
it, a quarter of an hour ago at most. -/
structure Attested (env : Env) (r : RegistryState) (accounts : RequestAdvance) (chainId : UInt64)
    (nonce : Bytes 16) (terms : Attestation) : Prop where
  signer : accounts.allowedSigner = terms.signer
  listed : ∃ allowed, r.allowedSigners.lookup terms.signer = some allowed ∧
    allowed.kind = AttestorKind.creditBridge.asU8
  signed : ∃ message, verifyPrevEd25519 env.sysvar = .ok (terms.signer, message) ∧
    Carries message accounts.agent accounts.pool chainId nonce terms
  past : terms.attestedAt.toInt ≤ env.now.toInt
  fresh : env.now.toInt - terms.attestedAt.toInt ≤ 900
  unexpired : env.now.toInt < terms.expiresAt.toInt

/-- All that bounds the amount of an advance. -/
structure Lendable (s : PoolState) (t : TokenLedger) (now : Int64) (agent : Pubkey)
    (terms : Attestation) (amount : ℕ) : Prop where
  floor : 10 ^ 6 ≤ amount
  cap : amount ≤ s.pool.maxAdvanceAbs.toNat
  window : (current agentWindowSeconds.toInt now.toInt (s.window agent)).count + amount ≤
    s.pool.windowLimit
  credit : terms.outstanding.toNat + s.livePrincipal agent + amount ≤ terms.creditLimit.toNat
  idle : s.pool.deployedAmount.toNat + amount ≤ s.pool.totalAssets.toNat
  vault : amount ≤ t.balance s.pool.usdcVault

/-- All limits are upper bounds but for the floor. -/
theorem Lendable.of_le {s : PoolState} {t : TokenLedger} {now : Int64} {agent : Pubkey}
    {less amount : ℕ} (h : Lendable s t now agent terms amount) (hfloor : 10 ^ 6 ≤ less)
    (hle : less ≤ amount) : Lendable s t now agent terms less where
  floor := hfloor
  cap := hle.trans h.cap
  window := (Nat.add_le_add_left hle _).trans h.window
  credit := (Nat.add_le_add_left hle _).trans h.credit
  idle := (Nat.add_le_add_left hle _).trans h.idle
  vault := hle.trans h.vault

/-- The checks of the attestation refuse nothing else. -/
theorem readAttestation_eq_ok {allowed : AllowedSigner} {agent pool : Pubkey} {chainId : UInt64} :
    readAttestation env allowed agent pool chainId nonce = .ok terms ↔
      ∃ message, verifyPrevEd25519 env.sysvar = .ok (terms.signer, message) ∧
        Carries message agent pool chainId nonce terms ∧
        terms.signer = allowed.signer ∧ allowed.kind = AttestorKind.creditBridge.asU8 ∧
        terms.attestedAt.toInt ≤ env.now.toInt ∧
        env.now.toInt - terms.attestedAt.toInt ≤ 900 ∧
        env.now.toInt < terms.expiresAt.toInt := by
  refine ⟨readAttestation_carries, ?_⟩
  rintro ⟨message, hverified, hcarries, hsigner, hkind, hpast, hfresh, hunexpired⟩
  obtain ⟨age, hage⟩ : ∃ age : Int64, age.toInt = env.now.toInt - terms.attestedAt.toInt :=
    Int64.exists_toInt_eq (by omega) (by omega)
  have hnow := hcarries.attestedAt
  simp only [readAttestation, bind_eq_ok, okOr_eq_ok, require_eq_ok, mapError_eq_ok, pure_eq_ok,
    Prod.exists, Int64.checkedSub_eq_some]
  refine ⟨terms.signer, message, hverified, (), hcarries.length, (), hsigner, (), hkind, (),
    hcarries.agent, (), hcarries.pool, (), hcarries.version, (), hcarries.nonce, (),
    hcarries.chainId, (), ?_, age, ?_, (), ?_, (), ?_, ?_⟩
  · rw [hnow]
    exact Int64.le_iff_toInt_le.mpr hpast
  · rw [hnow]
    exact hage
  · rw [Int64.le_iff_toInt_le, hage]
    exact hfresh
  · rw [hcarries.expiresAt]
    exact Int64.lt_iff_toInt_lt.mpr hunexpired
  · rw [hcarries.creditLimit, hcarries.outstanding, hcarries.expiresAt, hnow]

/-- The agent's account is there for the agent, or can be created. -/
theorem exists_initAssociatedTokenAccount {address wallet mint : Pubkey} {t : TokenLedger}
    {mintState : Mint} (hmint : t.mints.lookup mint = some mintState) :
    (∃ t', initAssociatedTokenAccount rt address wallet mint t = .ok t') ↔
      address = rt.associatedTokenAddress wallet mint ∧
      (t.IsAccount address mint wallet ∨
        t.mints.lookup address = none ∧ t.accounts.lookup address = none) := by
  simp only [initAssociatedTokenAccount, bind_eq_ok, require_eq_ok]
  constructor
  · rintro ⟨t', -, haddress, h⟩
    refine ⟨haddress, ?_⟩
    split at h
    case h_1 account hfound =>
      simp only [bind_eq_ok, require_eq_ok] at h
      obtain ⟨-, hon, -, howner, -⟩ := h
      exact .inl ⟨account, hfound, hon, howner⟩
    case h_2 hfree =>
      simp only [mapError_eq_ok, initializeAccount, bind_eq_ok, require_eq_ok] at h
      obtain ⟨-, hnone, -⟩ := h
      exact .inr ⟨hnone, hfree⟩
  · rintro ⟨haddress, ⟨account, hfound, hon, howner⟩ | ⟨hnone, hfree⟩⟩
    · rw [hfound]
      refine ⟨t, (), haddress, ?_⟩
      simp only [bind_eq_ok, require_eq_ok, pure_eq_ok]
      exact ⟨(), hon, (), howner, trivial⟩
    · have hcreated : initializeAccount address mint wallet t =
          .ok (t.setAccount address (.opened mint wallet)) := by
        simp only [initializeAccount, TokenLedger.mint, bind_eq_ok, okOr_eq_ok, require_eq_ok,
          pure_eq_ok]
        exact ⟨(), hnone, (), hfree, mintState, hmint, trivial⟩
      rw [hfree]
      exact ⟨_, (), haddress, mapError_eq_ok.mpr hcreated⟩

theorem initAssociatedTokenAccount_mints {address wallet mint : Pubkey} {t t' : TokenLedger}
    (h : initAssociatedTokenAccount rt address wallet mint t = .ok t') : t'.mints = t.mints := by
  simp only [initAssociatedTokenAccount, bind_eq_ok, require_eq_ok] at h
  obtain ⟨-, -, h⟩ := h
  split at h
  case h_1 account hfound =>
    simp only [bind_eq_ok, require_eq_ok, pure_eq_ok] at h
    obtain ⟨-, -, -, -, rfl⟩ := h
    rfl
  case h_2 =>
    simp only [mapError_eq_ok, initializeAccount, bind_eq_ok, require_eq_ok, pure_eq_ok] at h
    obtain ⟨-, -, -, -, _, -, rfl⟩ := h
    rfl

theorem PoolState.livePrincipal_eq (s : PoolState) (agent : Pubkey) :
    s.livePrincipal agent = ((s.ledgers.lookup agent).getD zeroedLedger).livePrincipal.toNat := by
  rw [PoolState.livePrincipal]
  cases s.ledgers.lookup agent <;> rfl

/-- What is counted in the window that a request is charged to. -/
theorem openedWindow_count {s : PoolState} {p : Pubkey} (h : Exposure rt p s) (agent : Pubkey)
    (now : Int64) :
    (rollWindow now (bindLedger (rt.issuanceLedgerPda p agent).2 agent p now
      ((s.ledgers.lookup agent).getD zeroedLedger))).issuedInWindow.toNat =
      (current agentWindowSeconds.toInt now.toInt (s.window agent)).count :=
  congrArg Window.count (h.openedWindow agent now)

/-- Within the limits nothing refuses a request. -/
theorem exists_requestAdvance {r : RegistryState} {s : PoolState} {t : TokenLedger}
    {allowed : AllowedSigner} (hbalanced : Balanced t)
    (hheld : t.HeldAlone s.pool.usdcVault s.pool.assetMint accounts.pool)
    (hexposure : Exposure rt accounts.pool s) (hvalid : s.pool.feeCurve.validate = .ok ())
    (hready : RequestReady rt accounts receivableId s.pool t)
    (hunconsumed : s.consumed.lookup (accounts.agent, receivableId) = none)
    (hallowed : loadAllowedSigner rt accounts.allowedSigner r = .ok allowed)
    (hread : readAttestation env allowed accounts.agent accounts.pool s.pool.chainId nonce =
      .ok terms)
    (hlend : Lendable s t env.now accounts.agent terms amount.toNat) :
    ∃ effect, requestAdvance rt env accounts receivableId amount nonce r s t = .ok effect := by
  have hfloor : minAdvanceAtoms ≤ amount := UInt64.le_iff_toNat_le.mpr hlend.floor
  have hvault := hheld.isAccount
  have hpositive : 0 < amount.toNat := Nat.lt_of_lt_of_le (by decide) hlend.floor
  have hunissued : s.advances.lookup (accounts.agent, receivableId) = none := by
    by_contra hissued
    obtain ⟨advance, hfound⟩ := Option.ne_none_iff_exists'.mp hissued
    obtain ⟨_, hconsumed, -⟩ := (hexposure.recorded _ _ hfound).payment
    rw [hunconsumed] at hconsumed
    cases hconsumed
  obtain ⟨mint, hmint⟩ := hbalanced.exists_mint hvault (hpositive.trans_le hlend.vault)
  obtain ⟨t₁, hopened⟩ := (exists_initAssociatedTokenAccount hmint).mpr
    ⟨hready.associated, hready.wallet⟩
  obtain ⟨hagent, hflow⟩ := initAssociatedTokenAccount_flow hopened
  have hkept := hflow.balance s.pool.usdcVault
  simp only [Pi.zero_apply, add_zero] at hkept
  obtain ⟨ledger, hcharged⟩ := (chargeLedger_iff hfloor).mpr
    ⟨(openedWindow_count hexposure accounts.agent env.now).symm ▸ hlend.window,
      s.livePrincipal_eq accounts.agent ▸ hlend.credit, UInt64.le_iff_toNat_le.mpr hlend.cap⟩
  obtain ⟨deployed, hdeployed⟩ := UInt64.exists_toNat_eq
    (hlend.idle.trans_lt s.pool.totalAssets.toNat_lt)
  have hidle : s.pool.deployedAmount ≤ s.pool.totalAssets :=
    UInt64.le_iff_toNat_le.mpr ((Nat.le_add_right _ _).trans hlend.idle)
  obtain ⟨feeOwed, latePenaltyPerDay, hpriced⟩ := exists_priceAdvance hvalid hidle amount env.now
    terms.expiresAt
  have hfrozen := hflow.persists.isFrozen_iff
  have hpays : DrawReady t₁ s.pool.usdcVault s.pool.assetMint accounts.pool amount := {
    funds := hkept ▸ hlend.vault
    allowed := (hflow.persists.heldAlone hheld).allows _
    thawed := (hfrozen _).not.mpr hready.vaultThawed
    source := ⟨accounts.pool, hflow.persists.account _ _ _ hvault⟩ }
  obtain ⟨t₂, htransfer⟩ := exists_transferChecked (hbalanced.moves hflow.toMoves)
    ⟨hpays, (hfrozen _).not.mpr hready.walletThawed, accounts.agent, hagent⟩
    (initAssociatedTokenAccount_mints hopened ▸ hmint)
  let advance := issuedAdvance rt env.now accounts receivableId amount feeOwed latePenaltyPerDay
    terms
  let s' : PoolState := { s with
    pool := { s.pool with deployedAmount := deployed }
    advances := s.advances.insert (accounts.agent, receivableId) advance
    consumed := s.consumed.insert (accounts.agent, receivableId)
      (consumedPayment rt env.now accounts receivableId nonce)
    ledgers := s.ledgers.insert accounts.agent ledger }
  have hopens : Opens rt accounts receivableId s t mint t₁ := {
    advance := hready.advance
    unissued := hunissued
    consumed := hready.consumed
    unconsumed := hunconsumed
    issuanceLedger := hready.issuanceLedger
    vault := hready.vault
    vaultFound := by
      obtain ⟨account, hfound, -⟩ := hvault
      exact ⟨account, hready.vault ▸ hfound⟩
    asset := hready.asset
    assetFound := hready.asset ▸ hmint
    opened := hready.asset ▸ hopened }
  have hissues : Issues rt env accounts receivableId amount nonce r s terms ledger advance s' := {
    attested := ⟨allowed, hallowed, hread⟩
    floor := hfloor
    unissued := hunissued
    unconsumed := hunconsumed
    charged := hcharged
    priced := hpriced
    recorded := rfl
    deployed := hdeployed
    covered := by
      rw [UInt64.le_iff_toNat_le, hdeployed]
      exact hlend.idle
    pool := rfl
    advances := rfl
    consumed := rfl
    ledgers := rfl
    tombstones := rfl }
  refine ⟨⟨s', t₂, _⟩, requestAdvance_eq_ok.mpr ⟨terms, ledger, advance, mint, t₁, hopens, hissues,
    ?_, rfl⟩⟩
  rw [hready.vault, hready.asset]
  exact htransfer

/-- A granted request is within the limits. -/
theorem lendable_of_requestAdvance {r : RegistryState} {s : PoolState} {t : TokenLedger}
    {effect : Effect} (hexposure : Exposure rt accounts.pool s)
    (h : requestAdvance rt env accounts receivableId amount nonce r s t = .ok effect) :
    ∃ allowed terms, loadAllowedSigner rt accounts.allowedSigner r = .ok allowed ∧
      readAttestation env allowed accounts.agent accounts.pool s.pool.chainId nonce = .ok terms ∧
      RequestReady rt accounts receivableId s.pool t ∧
      s.consumed.lookup (accounts.agent, receivableId) = none ∧
      Lendable s t env.now accounts.agent terms amount.toNat := by
  obtain ⟨terms, ledger, advance, mint, t₁, hopens, hissues, htransfer, -⟩ :=
    requestAdvance_eq_ok.mp h
  obtain ⟨allowed, hallowed, hread⟩ := hissues.attested
  obtain ⟨hassociated, hwallet⟩ :=
    (exists_initAssociatedTokenAccount hopens.assetFound).mp ⟨t₁, hopens.opened⟩
  obtain ⟨hwindow, hcredit, hcap⟩ := (chargeLedger_iff hissues.floor).mp ⟨ledger, hissues.charged⟩
  have hflow := (initAssociatedTokenAccount_flow hopens.opened).2
  have hfrozen := hflow.persists.isFrozen_iff
  have hpays := transferChecked_ready htransfer
  have hfunds := hpays.funds
  have hthawed := hpays.thawed
  have hkept := hflow.balance s.pool.usdcVault
  simp only [Pi.zero_apply, add_zero] at hkept
  have hcovered := UInt64.le_iff_toNat_le.mp hissues.covered
  rw [hissues.deployed] at hcovered
  rw [hopens.vault, hkept] at hfunds
  rw [hopens.vault, hfrozen] at hthawed
  rw [openedWindow_count hexposure] at hwindow
  rw [← s.livePrincipal_eq] at hcredit
  rw [hopens.asset] at hassociated hwallet
  refine ⟨allowed, terms, hallowed, hread, ?_, hissues.unconsumed, ?_⟩
  · exact {
      advance := hopens.advance
      consumed := hopens.consumed
      issuanceLedger := hopens.issuanceLedger
      vault := hopens.vault
      asset := hopens.asset
      associated := hassociated
      wallet := hwallet
      walletThawed := (hfrozen _).not.mp hpays.destinationThawed
      vaultThawed := hthawed }
  · exact {
      floor := UInt64.le_iff_toNat_le.mp hissues.floor
      cap := UInt64.le_iff_toNat_le.mp hcap
      window := hwindow
      credit := hcredit
      idle := hcovered
      vault := hfunds }

end Escrow

/-- An advance that was paid out and counted. -/
structure Lent (accounts : RequestAdvance) (receivableId : Bytes 32) (now : Int64) (amount : ℕ)
    (s s' : Chain) (ps ps' : PoolState) : Prop where
  vault : s'.tokens.balance ps.pool.usdcVault + amount = s.tokens.balance ps.pool.usdcVault
  paid : s'.tokens.balance accounts.agentUsdcAta = s.tokens.balance accounts.agentUsdcAta + amount
  deployed : ps'.pool.deployedAmount.toNat = ps.pool.deployedAmount.toNat + amount
  totalAssets : ps'.pool.totalAssets = ps.pool.totalAssets
  live : ps'.livePrincipal accounts.agent = ps.livePrincipal accounts.agent + amount
  window : ps'.window accounts.agent =
    some (charge agentWindowSeconds.toInt now.toInt amount (ps.window accounts.agent))
  recorded : ∃ advance, ps'.advances.lookup (accounts.agent, receivableId) = some advance ∧
    advance.principal.toNat = amount
  spent : ps'.consumed.lookup (accounts.agent, receivableId) ≠ none

section Chain

variable {rt : Runtime} {trace : List Input} {s s' : Chain} {env : Env} {p : Pubkey}
  {ps : PoolState} {accounts : RequestAdvance} {receivableId : Bytes 32} {amount : UInt64}
  {nonce : Bytes 16}

/-- What the registry and the instruction before a request prove together. -/
theorem Chain.attested_iff {chainId : UInt64} {terms : Attestation}
    (hrun : run rt trace = .ok s) :
    (∃ allowed, loadAllowedSigner rt accounts.allowedSigner s.registry = .ok allowed ∧
      readAttestation env allowed accounts.agent accounts.pool chainId nonce = .ok terms) ↔
      Attested env s.registry accounts chainId nonce terms := by
  constructor
  · rintro ⟨allowed, hallowed, hread⟩
    obtain ⟨hlisted, hseed, -⟩ := loadAllowedSigner_eq_ok.mp hallowed
    obtain ⟨message, hverified, hcarries, hsigner, hkind, hpast, hfresh, hunexpired⟩ :=
      readAttestation_eq_ok.mp hread
    rw [← hseed, ← hsigner] at hlisted
    exact {
      signer := hseed.symm.trans hsigner.symm
      listed := ⟨allowed, hlisted, hkind⟩
      signed := ⟨message, hverified, hcarries⟩
      past := hpast
      fresh := hfresh
      unexpired := hunexpired }
  · intro hattested
    obtain ⟨allowed, hlisted, hkind⟩ := hattested.listed
    obtain ⟨message, hverified, hcarries⟩ := hattested.signed
    obtain ⟨hsigner, hbump⟩ := run_named hrun _ allowed hlisted
    refine ⟨allowed, ?_, readAttestation_eq_ok.mpr ⟨message, hverified, hcarries, hsigner.symm,
      hkind, hattested.past, hattested.fresh, hattested.unexpired⟩⟩
    rw [hattested.signer]
    exact loadAllowedSigner_eq_ok.mpr ⟨hlisted, hsigner, hbump⟩

theorem Chain.requests_iff (hrun : run rt trace = .ok s) (hp : s.pools.lookup p = some ps)
    (hpool : accounts.pool = p) :
    (∃ s', step rt ⟨env, .pool (.requestAdvance accounts receivableId amount nonce)⟩ s = .ok s') ↔
      s.pools.lookup accounts.agent = none ∧
      RequestReady rt accounts receivableId ps.pool s.tokens ∧
      ps.consumed.lookup (accounts.agent, receivableId) = none ∧
      ∃ terms, Attested env s.registry accounts ps.pool.chainId nonce terms ∧
        Lendable ps s.tokens env.now accounts.agent terms amount.toNat := by
  subst hpool
  have hexposure := run_exposure hrun hp
  rw [accepts_iff hrun hp rfl]
  refine and_congr_right fun _ ↦ ?_
  constructor
  · rintro ⟨effect, heffect⟩
    obtain ⟨allowed, terms, hallowed, hread, hready, hunconsumed, hlend⟩ :=
      lendable_of_requestAdvance hexposure heffect
    exact ⟨hready, hunconsumed, terms, (attested_iff hrun).mp ⟨allowed, hallowed, hread⟩, hlend⟩
  · rintro ⟨hready, hunconsumed, terms, hattested, hlend⟩
    have hcustodial := run_custodial hrun
    obtain ⟨allowed, hallowed, hread⟩ := (attested_iff hrun).mpr hattested
    exact exists_requestAdvance hcustodial.balanced (hcustodial.custody _ ps hp).heldAlone hexposure
      (run_validCurves hrun hp).current hready hunconsumed hallowed hread hlend

theorem Chain.lent_of_request (hrun : run rt trace = .ok s) (hp : s.pools.lookup p = some ps)
    (hpool : accounts.pool = p)
    (hstep : step rt ⟨env, .pool (.requestAdvance accounts receivableId amount nonce)⟩ s =
      .ok s') :
    ∃ ps', s'.pools.lookup p = some ps' ∧
      Lent accounts receivableId env.now amount.toNat s s' ps ps' := by
  subst hpool
  obtain ⟨hagent, effect, heffect, rfl⟩ := (step_pool_iff hrun hp rfl).mp hstep
  have hagent : s.pools.lookup accounts.agent = none := hagent
  obtain ⟨terms, ledger, advance, hissues, haccount, hflow⟩ := requestAdvance_effect heffect
  have hflow : Flow s.tokens (s.commit accounts.pool effect).tokens _ _ _ _ := hflow
  have hvault := ((run_custodial hrun).custody _ ps hp).vault
  have hne : ps.pool.usdcVault ≠ accounts.agentUsdcAta := by
    apply (hflow.persists.account _ _ _ hvault).ne_of_owner haccount
    intro hsame
    rw [← hsame, hp] at hagent
    cases hagent
  have hprincipal : advance.principal = amount := congrArg Advance.principal hissues.recorded
  refine ⟨effect.state, Finmap.lookup_insert _, ?_⟩
  exact {
    vault := by
      have hbalance := hflow.balance ps.pool.usdcVault
      simpa [Pi.single_apply, hne] using hbalance
    paid := by
      have hbalance := hflow.balance accounts.agentUsdcAta
      simpa [Pi.single_apply, hne.symm] using hbalance
    deployed := hissues.deployed
    totalAssets := hissues.totalAssets
    live := by
      rw [hissues.livePrincipal, if_pos rfl]
    window := ((run_exposure hrun hp).issueWindow hissues).1
    recorded := by
      refine ⟨advance, ?_, congrArg UInt64.toNat hprincipal⟩
      rw [hissues.advances, Finmap.lookup_insert]
    spent := by
      rw [hissues.consumed, Finmap.lookup_insert]
      exact Option.some_ne_none _ }

/-- At every point of every run, an agent that is no pool and presents the right accounts, none of
them frozen, for a receivable it never used gets an advance exactly if a bridge on the whitelist has
just attested it credit, and the amount is within six limits: the floor, the cap of the pool, the
agent's window, its credit less all it owes, the idle assets, and the vault. So it is never refused
for asking for less, and what it gets is the amount, counted against each of these limits. -/
theorem credit_decision_exact (hrun : Chain.run rt trace = .ok s) (hp : s.pools.lookup p = some ps)
    (hpool : accounts.pool = p) :
    (∀ env receivableId amount nonce, (∃ s', Chain.step rt
        ⟨env, .pool (.requestAdvance accounts receivableId amount nonce)⟩ s = .ok s') ↔
      s.pools.lookup accounts.agent = none ∧
      RequestReady rt accounts receivableId ps.pool s.tokens ∧
      ps.consumed.lookup (accounts.agent, receivableId) = none ∧
      ∃ terms, Attested env s.registry accounts ps.pool.chainId nonce terms ∧
        Lendable ps s.tokens env.now accounts.agent terms amount.toNat) ∧
    (∀ env receivableId amount less nonce s', minAdvanceAtoms ≤ less → less ≤ amount →
      Chain.step rt ⟨env, .pool (.requestAdvance accounts receivableId amount nonce)⟩ s = .ok s' →
      ∃ s', Chain.step rt ⟨env, .pool (.requestAdvance accounts receivableId less nonce)⟩ s =
        .ok s') ∧
    ∀ env receivableId amount nonce s',
      Chain.step rt ⟨env, .pool (.requestAdvance accounts receivableId amount nonce)⟩ s = .ok s' →
      ∃ ps', s'.pools.lookup p = some ps' ∧
        Lent accounts receivableId env.now amount.toNat s s' ps ps' := by
  refine ⟨fun _ _ _ _ ↦ Chain.requests_iff hrun hp hpool, ?_,
    fun _ _ _ _ _ ↦ Chain.lent_of_request hrun hp hpool⟩
  intro env receivableId amount less nonce s' hfloor hle hstep
  obtain ⟨hagent, hready, hunconsumed, terms, hattested, hlend⟩ :=
    (Chain.requests_iff hrun hp hpool).mp ⟨s', hstep⟩
  exact (Chain.requests_iff hrun hp hpool).mpr ⟨hagent, hready, hunconsumed, terms, hattested,
    hlend.of_le (UInt64.le_iff_toNat_le.mp hfloor) (UInt64.le_iff_toNat_le.mp hle)⟩

/-- On localnet the agent may take any amount from one USDC up to the 150 USDC of its window, and
not an atom more. -/
theorem credit_decision_exact_localnet : ∃ s ps,
    Chain.run Localnet.runtime Localnet.opening = .ok s ∧
    s.pools.lookup Localnet.pool = some ps ∧
    (∀ amount : UInt64, minAdvanceAtoms ≤ amount → amount ≤ 150000000 →
      ∃ s' ps', Chain.step Localnet.runtime (Localnet.firstRequest amount) s = .ok s' ∧
        s'.pools.lookup Localnet.pool = some ps' ∧
        ps'.livePrincipal Localnet.agent = ps.livePrincipal Localnet.agent + amount.toNat) ∧
    ∀ s', Chain.step Localnet.runtime (Localnet.firstRequest 150000001) s ≠ .ok s' := by
  obtain ⟨s, ps, hrun, hp, htest⟩ := Localnet.reaches_iff.mp
    (show Localnet.reaches Localnet.opening (fun s ps ↦ ps.pool.agentWindowCap = 150000000 ∧
      Localnet.returns (Chain.step Localnet.runtime (Localnet.firstRequest 150000000) s)
        (fun _ ↦ true)) = true by decide +kernel)
  obtain ⟨hcap, hreturns⟩ := of_decide_eq_true htest
  obtain ⟨most, hmost, -⟩ := Localnet.returns_iff.mp hreturns
  have hexact {accounts : RequestAdvance} (hpool : accounts.pool = Localnet.pool) :=
    @credit_decision_exact _ _ _ _ _ accounts hrun hp hpool
  refine ⟨s, ps, hrun, hp, ?_, ?_⟩
  · intro amount hfloor hamount
    obtain ⟨s', hstep⟩ := (hexact rfl).2.1 _ _ _ amount _ most hfloor hamount hmost
    obtain ⟨ps', hp', hlent⟩ := (hexact rfl).2.2 _ _ _ _ s' hstep
    exact ⟨s', ps', hstep, hp', hlent.live⟩
  · intro more hmore
    obtain ⟨-, -, -, terms, -, hlend⟩ := ((hexact rfl).1 _ _ _ _).mp ⟨more, hmore⟩
    have hwindow := hlend.window
    rw [Pool.windowLimit, hcap] at hwindow
    have hmore : (150000001 : UInt64).toNat = 150000001 := rfl
    have hlimit : (if (150000000 : UInt64) = 0 then 2 ^ 64 - 1 else (150000000 : UInt64).toNat) =
        150000000 := rfl
    omega

end Chain

end CredMesh
