import CredMesh.Escrow.Pricing
import CredMesh.Spl.TokenRights

/-!
# Deposits and withdrawals

Liquidity providers exchange the pool's asset for shares. Each instruction is what Anchor does with
its accounts (`tryAccounts`), which reads all of them before it checks a constraint, followed by its
handler.
-/

namespace CredMesh.Escrow

open Outcome Spl

def tokenAccount (t : TokenLedger) (address : Pubkey) : Except Error TokenAccount :=
  okOr (t.accounts.lookup address) (.anchor .accountNotInitialized)

def mintAccount (t : TokenLedger) (address : Pubkey) : Except Error Mint :=
  okOr (t.mints.lookup address) (.anchor .accountNotInitialized)

/-- The constraints `token::mint` and `token::authority`. -/
def requireTokenAccount (account : TokenAccount) (mint authority : Pubkey) :
    Except Error Unit := do
  require (account.mint = mint) (.anchor .constraintTokenMint)
  require (account.owner = authority) (.anchor .constraintTokenOwner)

/-- The constraint `address`. -/
def requireAddress (actual expected : Pubkey) : Except Error Unit :=
  require (actual = expected) (.anchor .constraintAddress)

structure Deposit where
  lp : Pubkey
  pool : Pubkey
  usdcVault : Pubkey
  lpUsdcAta : Pubkey
  shareMint : Pubkey
  lpShareAta : Pubkey
  usdcMint : Pubkey
  deriving DecidableEq

/-- `Withdraw` takes the same accounts as `Deposit`, under the same constraints. -/
abbrev Withdraw := Deposit

def Deposit.tryAccounts (accounts : Deposit) (pool : Pool) (t : TokenLedger) :
    Except Error (TokenAccount × Mint) := do
  let usdcVault ← tokenAccount t accounts.usdcVault
  let lpUsdcAta ← tokenAccount t accounts.lpUsdcAta
  let _ ← mintAccount t accounts.shareMint
  let lpShareAta ← tokenAccount t accounts.lpShareAta
  let usdcMint ← mintAccount t accounts.usdcMint
  requireAddress accounts.usdcVault pool.usdcVault
  requireTokenAccount lpUsdcAta pool.assetMint accounts.lp
  requireAddress accounts.shareMint pool.shareMint
  requireTokenAccount lpShareAta pool.shareMint accounts.lp
  requireAddress accounts.usdcMint pool.assetMint
  pure (usdcVault, usdcMint)

def deposit (accounts : Deposit) (amount : UInt64) (s : PoolState) (t : TokenLedger) :
    Except Error Effect := do
  let (_, usdcMint) ← accounts.tryAccounts s.pool t
  require (0 < amount) (.credmesh .mathOverflow)
  let sharesToMint ← previewDeposit amount s.pool.totalAssets s.pool.totalShares
  require (0 < sharesToMint) (.credmesh .mathOverflow)
  let t ← (transferChecked accounts.lpUsdcAta accounts.usdcMint accounts.usdcVault accounts.lp
    amount usdcMint.decimals t).mapError .token
  let t ← (mintTo accounts.shareMint accounts.lpShareAta accounts.pool sharesToMint t).mapError
    .token
  let totalAssets ← okOr (s.pool.totalAssets.checkedAdd amount) (.credmesh .mathOverflow)
  let totalShares ← okOr (s.pool.totalShares.checkedAdd sharesToMint) (.credmesh .mathOverflow)
  pure {
    state := { s with pool := { s.pool with totalAssets, totalShares } }
    tokens := t
    event := .deposited accounts.pool accounts.lp amount sharesToMint }

def withdraw (accounts : Withdraw) (shares : UInt64) (s : PoolState) (t : TokenLedger) :
    Except Error Effect := do
  let (usdcVault, usdcMint) ← accounts.tryAccounts s.pool t
  require (0 < shares) (.credmesh .mathOverflow)
  let assetsToReturn ← previewRedeem shares s.pool.totalAssets s.pool.totalShares
  require (0 < assetsToReturn) (.credmesh .mathOverflow)
  -- the guard compares with the raw vault balance, not with the books
  require (assetsToReturn ≤ usdcVault.amount) (.credmesh .insufficientIdleLiquidity)
  let t ← (burn accounts.lpShareAta accounts.shareMint accounts.lp shares t).mapError .token
  let t ← (transferChecked accounts.usdcVault accounts.usdcMint accounts.lpUsdcAta accounts.pool
    assetsToReturn usdcMint.decimals t).mapError .token
  let totalAssets ← okOr (s.pool.totalAssets.checkedSub assetsToReturn) (.credmesh .mathOverflow)
  let totalShares ← okOr (s.pool.totalShares.checkedSub shares) (.credmesh .mathOverflow)
  pure {
    state := { s with pool := { s.pool with totalAssets, totalShares } }
    tokens := t
    event := .withdrew accounts.pool accounts.lp shares assetsToReturn }

/-! ## Effects -/

theorem requireTokenAccount_eq_ok {account : TokenAccount} {mint authority : Pubkey} {u : Unit} :
    requireTokenAccount account mint authority = .ok u ↔
      account.mint = mint ∧ account.owner = authority := by
  simp only [requireTokenAccount, bind_eq_ok, require_eq_ok, exists_const]

variable {accounts : Deposit} {s : PoolState} {t : TokenLedger} {effect : Effect}

/-- What the account constraints of a deposit or a withdrawal establish. -/
structure DepositReady (accounts : Deposit) (pool : Pool) (t : TokenLedger) : Prop where
  vault : accounts.usdcVault = pool.usdcVault
  shareMint : accounts.shareMint = pool.shareMint
  usdcMint : accounts.usdcMint = pool.assetMint
  lpUsdc : t.IsAccount accounts.lpUsdcAta pool.assetMint accounts.lp
  lpShare : t.IsAccount accounts.lpShareAta pool.shareMint accounts.lp

theorem Deposit.tryAccounts_eq_ok {pool : Pool} {usdcVault : TokenAccount} {usdcMint : Mint} :
    accounts.tryAccounts pool t = .ok (usdcVault, usdcMint) ↔
      DepositReady accounts pool t ∧ t.accounts.lookup accounts.usdcVault = some usdcVault ∧
      (t.mints.lookup accounts.shareMint).isSome ∧
      t.mints.lookup accounts.usdcMint = some usdcMint := by
  simp only [Deposit.tryAccounts, requireAddress, tokenAccount, mintAccount, bind_eq_ok,
    okOr_eq_ok, require_eq_ok, requireTokenAccount_eq_ok, pure_eq_ok, Prod.mk.injEq,
    Option.isSome_iff_exists]
  constructor
  · rintro ⟨vault, hlookup, lpUsdc, hlpUsdc, shareMint, hmint, lpShare, hlpShare, mint, husdcMint,
      -, hvault, -, hlp, -, hshare, -, hlp', -, husdc, rfl, rfl⟩
    exact ⟨⟨hvault, hshare, husdc, ⟨lpUsdc, hlpUsdc, hlp⟩, ⟨lpShare, hlpShare, hlp'⟩⟩, hlookup,
      ⟨shareMint, hmint⟩, husdcMint⟩
  · rintro ⟨⟨hvault, hshare, husdc, ⟨lpUsdc, hlpUsdc, hlp⟩, ⟨lpShare, hlpShare, hlp'⟩⟩, hlookup,
      ⟨shareMint, hmint⟩, husdcMint⟩
    exact ⟨usdcVault, hlookup, lpUsdc, hlpUsdc, shareMint, hmint, lpShare, hlpShare, usdcMint,
      husdcMint, (), hvault, (), hlp, (), hshare, (), hlp', (), husdc, rfl, rfl⟩

/-- A successful deposit: the previewed shares are booked with the amount. -/
structure Buys (accounts : Deposit) (amount : UInt64) (s : PoolState) (shares : UInt64)
    (s' : PoolState) (event : Event) : Prop where
  amountPositive : 0 < amount
  priced : previewDeposit amount s.pool.totalAssets s.pool.totalShares = .ok shares
  sharesPositive : 0 < shares
  totalAssets : s'.pool.totalAssets.toNat = s.pool.totalAssets.toNat + amount.toNat
  totalShares : s'.pool.totalShares.toNat = s.pool.totalShares.toNat + shares.toNat
  state : s' = { s with pool := { s.pool with
    totalAssets := s'.pool.totalAssets
    totalShares := s'.pool.totalShares } }
  emitted : event = .deposited accounts.pool accounts.lp amount shares

/-- A successful withdrawal: the shares are booked out with their previewed worth. -/
structure Redeems (accounts : Withdraw) (shares : UInt64) (s : PoolState) (assets : UInt64)
    (s' : PoolState) (event : Event) : Prop where
  sharesPositive : 0 < shares
  priced : previewRedeem shares s.pool.totalAssets s.pool.totalShares = .ok assets
  assetsPositive : 0 < assets
  totalAssets : s'.pool.totalAssets.toNat + assets.toNat = s.pool.totalAssets.toNat
  totalShares : s'.pool.totalShares.toNat + shares.toNat = s.pool.totalShares.toNat
  state : s' = { s with pool := { s.pool with
    totalAssets := s'.pool.totalAssets
    totalShares := s'.pool.totalShares } }
  emitted : event = .withdrew accounts.pool accounts.lp shares assets

/-- A deposit in full: what its accounts admit, what it books, moves and emits. -/
theorem deposit_eq_ok {amount : UInt64} :
    deposit accounts amount s t = .ok effect ↔
      ∃ vault mint shares t₁, accounts.tryAccounts s.pool t = .ok (vault, mint) ∧
        Buys accounts amount s shares effect.state effect.event ∧
        transferChecked accounts.lpUsdcAta accounts.usdcMint accounts.usdcVault accounts.lp amount
          mint.decimals t = .ok t₁ ∧
        mintTo accounts.shareMint accounts.lpShareAta accounts.pool shares t₁ =
          .ok effect.tokens := by
  simp only [deposit, bind_eq_ok, okOr_eq_ok, require_eq_ok, mapError_eq_ok, pure_eq_ok,
    UInt64.checkedAdd_eq_some, Prod.exists]
  constructor
  · rintro ⟨vault, mint, haccounts, -, hamount, shares, hpriced, -, hshares, t₁, htransfer, t₂,
      hmint, totalAssets, hassets, totalShares, htotal, rfl⟩
    exact ⟨vault, mint, shares, t₁, haccounts,
      ⟨hamount, hpriced, hshares, hassets, htotal, rfl, rfl⟩, htransfer, hmint⟩
  · rintro ⟨vault, mint, shares, t₁, haccounts, hbuys, htransfer, hmint⟩
    refine ⟨vault, mint, haccounts, (), hbuys.amountPositive, shares, hbuys.priced, (),
      hbuys.sharesPositive, t₁, htransfer, effect.tokens, hmint, effect.state.pool.totalAssets,
      hbuys.totalAssets, effect.state.pool.totalShares, hbuys.totalShares, ?_⟩
    rw [← hbuys.state, ← hbuys.emitted]

/-- A withdrawal in full. The guard bounds what it pays by what the vault holds. -/
theorem withdraw_eq_ok {shares : UInt64} :
    withdraw accounts shares s t = .ok effect ↔
      ∃ vault mint assets t₁, accounts.tryAccounts s.pool t = .ok (vault, mint) ∧
        Redeems accounts shares s assets effect.state effect.event ∧ assets ≤ vault.amount ∧
        burn accounts.lpShareAta accounts.shareMint accounts.lp shares t = .ok t₁ ∧
        transferChecked accounts.usdcVault accounts.usdcMint accounts.lpUsdcAta accounts.pool
          assets mint.decimals t₁ = .ok effect.tokens := by
  simp only [withdraw, bind_eq_ok, okOr_eq_ok, require_eq_ok, mapError_eq_ok, pure_eq_ok,
    UInt64.checkedSub_eq_some, Prod.exists]
  constructor
  · rintro ⟨vault, mint, haccounts, -, hshares, assets, hpriced, -, hassets, -, hliquid, t₁, hburn,
      t₂, htransfer, totalAssets, hbooked, totalShares, htotal, rfl⟩
    exact ⟨vault, mint, assets, t₁, haccounts,
      ⟨hshares, hpriced, hassets, hbooked, htotal, rfl, rfl⟩, hliquid, hburn, htransfer⟩
  · rintro ⟨vault, mint, assets, t₁, haccounts, hredeems, hliquid, hburn, htransfer⟩
    refine ⟨vault, mint, haccounts, (), hredeems.sharesPositive, assets, hredeems.priced, (),
      hredeems.assetsPositive, (), hliquid, t₁, hburn, effect.tokens, htransfer,
      effect.state.pool.totalAssets, hredeems.totalAssets, effect.state.pool.totalShares,
      hredeems.totalShares, ?_⟩
    rw [← hredeems.state, ← hredeems.emitted]

/-- A deposit moves the amount into the vault, mints the previewed shares and books both. -/
theorem deposit_effect {amount : UInt64} (h : deposit accounts amount s t = .ok effect) :
    DepositReady accounts s.pool t ∧ ∃ shares totalAssets totalShares : UInt64,
      0 < amount ∧ previewDeposit amount s.pool.totalAssets s.pool.totalShares = .ok shares ∧
      totalAssets.toNat = s.pool.totalAssets.toNat + amount.toNat ∧
      totalShares.toNat = s.pool.totalShares.toNat + shares.toNat ∧
      effect.state = { s with pool := { s.pool with totalAssets, totalShares } } ∧
      Flow t effect.tokens (Pi.single accounts.lpUsdcAta amount.toNat)
        (Pi.single s.pool.usdcVault amount.toNat + Pi.single accounts.lpShareAta shares.toNat)
        (Pi.single s.pool.shareMint shares.toNat) 0 := by
  obtain ⟨_, _, shares, t₁, haccounts, hbuys, htransfer, hmint⟩ := deposit_eq_ok.mp h
  have hready := (Deposit.tryAccounts_eq_ok.mp haccounts).1
  have hflow := (transferChecked_flow htransfer).trans (mintTo_flow hmint).2.2
  rw [hready.vault, hready.shareMint, add_zero, zero_add, add_zero] at hflow
  exact ⟨hready, shares, _, _, hbuys.amountPositive, hbuys.priced, hbuys.totalAssets,
    hbuys.totalShares, hbuys.state, hflow⟩

/-- A withdrawal burns the shares, pays their previewed worth out of the vault and books both. -/
theorem withdraw_effect {shares : UInt64} (h : withdraw accounts shares s t = .ok effect) :
    DepositReady accounts s.pool t ∧ ∃ assets totalAssets totalShares : UInt64,
      previewRedeem shares s.pool.totalAssets s.pool.totalShares = .ok assets ∧
      totalAssets.toNat + assets.toNat = s.pool.totalAssets.toNat ∧
      totalShares.toNat + shares.toNat = s.pool.totalShares.toNat ∧
      effect.state = { s with pool := { s.pool with totalAssets, totalShares } } ∧
      Flow t effect.tokens
        (Pi.single accounts.lpShareAta shares.toNat + Pi.single s.pool.usdcVault assets.toNat)
        (Pi.single accounts.lpUsdcAta assets.toNat) 0
        (Pi.single s.pool.shareMint shares.toNat) := by
  obtain ⟨_, _, assets, t₁, haccounts, hredeems, -, hburn, htransfer⟩ := withdraw_eq_ok.mp h
  have hready := (Deposit.tryAccounts_eq_ok.mp haccounts).1
  have hflow := (burn_flow hburn).trans (transferChecked_flow htransfer)
  rw [hready.vault, hready.shareMint, zero_add, add_zero, add_zero] at hflow
  exact ⟨hready, assets, _, _, hredeems.priced, hredeems.totalAssets, hredeems.totalShares,
    hredeems.state, hflow⟩

/-- A withdrawal leaves every account alone but the three that it names. -/
theorem withdraw_accounts {shares : UInt64} {address : Pubkey}
    (h : withdraw accounts shares s t = .ok effect) (hshare : address ≠ accounts.lpShareAta)
    (hvault : address ≠ accounts.usdcVault) (husdc : address ≠ accounts.lpUsdcAta) :
    effect.tokens.accounts.lookup address = t.accounts.lookup address := by
  obtain ⟨_, _, _, t₁, -, -, -, hburn, htransfer⟩ := withdraw_eq_ok.mp h
  exact (transferChecked_accounts htransfer hvault husdc).trans (burn_accounts hburn hshare)

/-- The provider may take the amount, and neither its account nor the vault is frozen. -/
structure Depositable (accounts : Deposit) (pool : Pool) (amount : UInt64) (t : TokenLedger) :
    Prop where
  amount : t.Allows accounts.lpUsdcAta accounts.lp amount.toNat
  lpUsdc : ¬ t.IsFrozen accounts.lpUsdcAta
  vault : ¬ t.IsFrozen pool.usdcVault

/-- The provider may take the shares, and neither the vault nor the account that it pays into is
frozen. The shares of a pool never are. -/
structure Withdrawable (accounts : Withdraw) (pool : Pool) (shares : UInt64) (t : TokenLedger) :
    Prop where
  shares : t.Allows accounts.lpShareAta accounts.lp shares.toNat
  vault : ¬ t.IsFrozen pool.usdcVault
  lpUsdc : ¬ t.IsFrozen accounts.lpUsdcAta

/-- Shares are redeemed whenever the account holds them, they are worth something, both the vault
and the books hold what they are worth, and nothing is frozen. -/
theorem exists_withdraw {shares assets : UInt64} (hbalanced : Balanced t)
    (hready : DepositReady accounts s.pool t)
    (hvault : t.HeldAlone s.pool.usdcVault s.pool.assetMint accounts.pool)
    (hshareMint : t.IssuedAlone s.pool.shareMint accounts.pool)
    (hmints : s.pool.assetMint ≠ s.pool.shareMint)
    (hshares : 0 < shares.toNat) (hassets : 0 < assets.toNat)
    (hpreview : previewRedeem shares s.pool.totalAssets s.pool.totalShares = .ok assets)
    (hheld : shares.toNat ≤ t.balance accounts.lpShareAta)
    (hwithdrawable : Withdrawable accounts s.pool shares t)
    (hliquid : assets.toNat ≤ t.balance s.pool.usdcVault)
    (hbooked : assets.toNat ≤ s.pool.totalAssets.toNat)
    (hissued : shares.toNat ≤ s.pool.totalShares.toNat) :
    ∃ effect, withdraw accounts shares s t = .ok effect ∧
      effect.event = .withdrew accounts.pool accounts.lp shares assets := by
  obtain ⟨assetMint, hassetMint⟩ :=
    hbalanced.exists_mint hvault.isAccount (hassets.trans_le hliquid)
  have hthawed := hshareMint.not_isFrozen hready.lpShare
  obtain ⟨shareMint, hshareFound, -⟩ := hshareMint.found
  obtain ⟨t₁, hburn⟩ := exists_burn hbalanced
    ⟨hheld, hwithdrawable.shares, hthawed, accounts.lp, hready.lpShare⟩ hshareFound
  have hflow := burn_flow hburn
  have hne : s.pool.usdcVault ≠ accounts.lpShareAta :=
    hvault.isAccount.ne_of_mint hready.lpShare hmints
  have hkept := hflow.balance s.pool.usdcVault
  simp only [Pi.single_eq_of_ne hne, Pi.zero_apply, add_zero] at hkept
  have hpays : DrawReady t₁ s.pool.usdcVault s.pool.assetMint accounts.pool assets := {
    funds := by rw [hkept]; exact hliquid
    allowed := (hflow.persists.heldAlone hvault).allows _
    thawed := (hflow.persists.isFrozen_iff _).not.mpr hwithdrawable.vault
    source := ⟨accounts.pool, hflow.persists.account _ _ _ hvault.isAccount⟩ }
  obtain ⟨t₂, htransfer⟩ := exists_transferChecked (hbalanced.moves hflow.toMoves)
    ⟨hpays, (hflow.persists.isFrozen_iff _).not.mpr hwithdrawable.lpUsdc, accounts.lp,
      hflow.persists.account _ _ _ hready.lpUsdc⟩
    ((burn_mints hburn hmints).trans hassetMint)
  obtain ⟨totalAssets, hassets'⟩ := UInt64.exists_add_eq hbooked
  obtain ⟨totalShares, hshares'⟩ := UInt64.exists_add_eq hissued
  obtain ⟨vault, hfound, -⟩ := hvault.isAccount
  rw [TokenLedger.balance_of_lookup hfound] at hliquid
  let s' : PoolState := { s with pool := { s.pool with totalAssets, totalShares } }
  have hredeems : Redeems accounts shares s assets s'
      (.withdrew accounts.pool accounts.lp shares assets) := {
    sharesPositive := UInt64.lt_iff_toNat_lt.mpr hshares
    priced := hpreview
    assetsPositive := UInt64.lt_iff_toNat_lt.mpr hassets
    totalAssets := hassets'
    totalShares := hshares'
    state := rfl
    emitted := rfl }
  refine ⟨⟨s', t₂, _⟩, withdraw_eq_ok.mpr ⟨vault, assetMint, assets, t₁, ?_, hredeems,
    UInt64.le_iff_toNat_le.mpr hliquid, ?_, ?_⟩, rfl⟩
  · rw [Deposit.tryAccounts_eq_ok, hready.vault, hready.shareMint, hready.usdcMint]
    exact ⟨hready, hfound, by simp [hshareFound], hassetMint⟩
  · rw [hready.shareMint]
    exact hburn
  · rw [hready.vault, hready.usdcMint]
    exact htransfer

end CredMesh.Escrow
