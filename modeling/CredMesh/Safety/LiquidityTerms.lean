import CredMesh.Chain.Acceptance
import CredMesh.Safety.Solvency
import CredMesh.Safety.SharePrice

/-!
# The terms of deposits and withdrawals

Whether a provider may deposit or withdraw is decided by a few numbers that anybody can read off the
chain. None of the checks of the token program and none of the overflow checks of the escrow refuses
anything else, because all shares in circulation are counted in the books and no token account holds
more than the supply of its mint.
-/

namespace CredMesh

open Outcome Escrow Spl Execution VirtualShares

namespace Spl

variable {t : TokenLedger} {mint destination authority owner : Pubkey} {amount : UInt64}

/-- As long as all holdings are backed by supply, a mint goes through whenever the supply does not
overflow. -/
theorem exists_mintTo (hbalanced : Balanced t) (hdestination : t.IsAccount destination mint owner)
    (hmint : t.IsMint mint authority) (hthawed : ¬ t.IsFrozen destination)
    (hfits : t.supply mint + amount.toNat < 2 ^ 64) :
    ∃ t', mintTo mint destination authority amount t = .ok t' := by
  have hheld := hdestination.balance_le_holdings
  rw [hbalanced mint] at hheld
  obtain ⟨mintState, hfound, hauthority⟩ := hmint
  rw [TokenLedger.supply_of_lookup hfound] at hheld hfits
  obtain ⟨account, haccount, hon, -⟩ := hdestination
  rw [TokenLedger.balance_of_lookup haccount] at hheld
  rw [not_isFrozen_iff haccount] at hthawed
  obtain ⟨balance, hbalance⟩ : ∃ c : UInt64, c.toNat = account.amount.toNat + amount.toNat :=
    UInt64.exists_toNat_eq (by omega)
  obtain ⟨supply, hsupply⟩ : ∃ c : UInt64, c.toNat = mintState.supply.toNat + amount.toNat :=
    UInt64.exists_toNat_eq hfits
  simp only [mintTo, TokenLedger.account, TokenLedger.mint, exists_bind_eq_ok, okOr_eq_ok,
    require_eq_ok, UInt64.checkedAdd_eq_some]
  exact ⟨account, haccount, (), hthawed, (), hon, mintState, hfound, authority, hauthority, (), rfl,
    balance, hbalance, supply, hsupply, exists_pure_eq_ok⟩

end Spl

namespace Escrow

variable {accounts : Deposit} {s : PoolState} {t : TokenLedger} {amount : UInt64}

/-- What a deposit buys is priced whenever the new totals fit. -/
theorem Pool.exists_previewDeposit {pool : Pool}
    (hassets : pool.totalAssets.toNat + amount.toNat < 2 ^ 64)
    (hshares : pool.totalShares.toNat + pool.totals.bought amount.toNat < 2 ^ 64) :
    ∃ shares, previewDeposit amount pool.totalAssets pool.totalShares = .ok shares ∧
      shares.toNat = pool.totals.bought amount.toNat := by
  obtain ⟨shares, hbought⟩ : ∃ c : UInt64, c.toNat = pool.totals.bought amount.toNat :=
    UInt64.exists_toNat_eq (by omega)
  refine ⟨shares, previewDeposit_eq_ok.mpr ⟨?_, hbought⟩, hbought⟩
  have hcirculating := pool.totalShares.toNat_lt
  by_cases hsmall : amount.toNat < 10 ^ 6
  · calc
      amount.toNat * (pool.totalShares.toNat + 10 ^ 9) ≤ 10 ^ 6 * (2 ^ 64 + 10 ^ 9) :=
        Nat.mul_le_mul hsmall.le (by omega)
      _ < 2 ^ 128 := by norm_num
  · calc
      amount.toNat * (pool.totalShares.toNat + 10 ^ 9) <
          pool.totals.assets * (pool.totals.bought amount.toNat + 1) :=
        Nat.lt_mul_div_succ _ (Nat.succ_pos _)
      _ ≤ 2 ^ 64 * 2 ^ 64 :=
        Nat.mul_le_mul (show pool.totalAssets.toNat + 10 ^ 6 ≤ 2 ^ 64 by omega) (by omega)
      _ = 2 ^ 128 := by norm_num

/-- A deposit goes through whenever the account holds the amount, it buys something, the new totals
fit, and nothing is frozen. -/
theorem exists_deposit (hbalanced : Balanced t) (hready : DepositReady accounts s.pool t)
    (hvault : t.IsAccount s.pool.usdcVault s.pool.assetMint accounts.pool)
    (hshareMint : t.IssuedAlone s.pool.shareMint accounts.pool)
    (hdepositable : Depositable accounts s.pool amount t)
    (hcounted : t.supply s.pool.shareMint ≤ s.pool.totalShares.toNat)
    (hheld : amount.toNat ≤ t.balance accounts.lpUsdcAta)
    (hbought : 0 < s.pool.totals.bought amount.toNat)
    (hassets : s.pool.totalAssets.toNat + amount.toNat < 2 ^ 64)
    (hshares : s.pool.totalShares.toNat + s.pool.totals.bought amount.toNat < 2 ^ 64) :
    ∃ effect, deposit accounts amount s t = .ok effect := by
  have hamount : 0 < amount.toNat := by
    by_contra hzero
    rw [Nat.eq_zero_of_not_pos hzero, Totals.bought, Nat.zero_mul, Nat.zero_div] at hbought
    exact hbought.false
  obtain ⟨shares, hpreview, hminted⟩ := Pool.exists_previewDeposit hassets hshares
  obtain ⟨assetMint, hassetMint⟩ := hbalanced.exists_mint hready.lpUsdc (hamount.trans_le hheld)
  obtain ⟨t₁, htransfer⟩ := exists_transferChecked hbalanced
    ⟨⟨hheld, hdepositable.amount, hdepositable.lpUsdc, accounts.lp, hready.lpUsdc⟩,
      hdepositable.vault, accounts.pool, hvault⟩ hassetMint
  have hflow := transferChecked_flow htransfer
  have hsupply := hflow.supply s.pool.shareMint
  simp only [Pi.zero_apply, add_zero] at hsupply
  obtain ⟨t₂, hmintTo⟩ :
      ∃ t₂, mintTo s.pool.shareMint accounts.lpShareAta accounts.pool shares t₁ = .ok t₂ :=
    exists_mintTo (hbalanced.moves hflow.toMoves) (hflow.persists.account _ _ _ hready.lpShare)
      (hflow.persists.mint _ _ hshareMint.isMint)
      ((hflow.persists.isFrozen_iff _).not.mpr (hshareMint.not_isFrozen hready.lpShare)) (by omega)
  obtain ⟨totalAssets, htotalAssets⟩ := UInt64.exists_toNat_eq hassets
  obtain ⟨totalShares, htotalShares⟩ := UInt64.exists_toNat_eq hshares
  rw [← hminted] at htotalShares
  obtain ⟨vault, hfound, -⟩ := hvault
  obtain ⟨shareMint, hshareMint, -⟩ := hshareMint.found
  let s' : PoolState := { s with pool := { s.pool with totalAssets, totalShares } }
  have hbuys : Buys accounts amount s shares s'
      (.deposited accounts.pool accounts.lp amount shares) := {
    amountPositive := UInt64.lt_iff_toNat_lt.mpr hamount
    priced := hpreview
    sharesPositive := UInt64.lt_iff_toNat_lt.mpr (hminted ▸ hbought)
    totalAssets := htotalAssets
    totalShares := htotalShares
    state := rfl
    emitted := rfl }
  refine ⟨⟨s', t₂, _⟩, deposit_eq_ok.mpr ⟨vault, assetMint, shares, t₁, ?_, hbuys, ?_, ?_⟩⟩
  · rw [Deposit.tryAccounts_eq_ok, hready.vault, hready.shareMint, hready.usdcMint]
    exact ⟨hready, hfound, by simp [hshareMint], hassetMint⟩
  · rw [hready.vault, hready.usdcMint]
    exact htransfer
  · rw [hready.shareMint]
    exact hmintTo

end Escrow

/-- USDC that a provider pays in or is paid out, and shares that are minted to it or burned, in the
books as well as in the accounts. -/
structure Exchanged (accounts : Deposit) (paidIn paidOut minted burned : ℕ) (s s' : Chain)
    (ps ps' : PoolState) : Prop where
  totalAssets : ps'.pool.totalAssets.toNat + paidOut = ps.pool.totalAssets.toNat + paidIn
  totalShares : ps'.pool.totalShares.toNat + burned = ps.pool.totalShares.toNat + minted
  vault : s'.tokens.balance ps.pool.usdcVault + paidOut =
    s.tokens.balance ps.pool.usdcVault + paidIn
  lpUsdc : s'.tokens.balance accounts.lpUsdcAta + paidIn =
    s.tokens.balance accounts.lpUsdcAta + paidOut
  lpShare : s'.tokens.balance accounts.lpShareAta + burned =
    s.tokens.balance accounts.lpShareAta + minted

section Chain

variable {rt : Runtime} {trace : List Input} {s s' : Chain} {env : Env} {p : Pubkey}
  {ps : PoolState} {accounts : Deposit} {amount shares : UInt64}

/-- The accounts of a provider are not the vault, and they differ. -/
theorem Escrow.DepositReady.distinct (hrun : Chain.run rt trace = .ok s)
    (hp : s.pools.lookup p = some ps) (hlp : s.pools.lookup accounts.lp = none)
    (hready : DepositReady accounts ps.pool s.tokens) :
    accounts.lpUsdcAta ≠ ps.pool.usdcVault ∧ accounts.lpShareAta ≠ ps.pool.usdcVault ∧
    accounts.lpUsdcAta ≠ accounts.lpShareAta := by
  have hvault := ((Chain.run_custodial hrun).custody p ps hp).vault
  have hmints := Chain.run_mints_ne hrun hp
  refine ⟨?_, ?_, hready.lpUsdc.ne_of_mint hready.lpShare hmints⟩
  · refine (hvault.ne_of_owner hready.lpUsdc ?_).symm
    rintro rfl
    rw [hp] at hlp
    cases hlp
  · exact (hvault.ne_of_mint hready.lpShare hmints).symm

theorem Chain.deposits_iff (hrun : run rt trace = .ok s) (hp : s.pools.lookup p = some ps)
    (hpool : accounts.pool = p) :
    (∃ s', step rt ⟨env, .pool (.deposit accounts amount)⟩ s = .ok s') ↔
      s.pools.lookup accounts.lp = none ∧ DepositReady accounts ps.pool s.tokens ∧
      Depositable accounts ps.pool amount s.tokens ∧
      amount.toNat ≤ s.tokens.balance accounts.lpUsdcAta ∧
      0 < ps.pool.totals.bought amount.toNat ∧
      ps.pool.totalAssets.toNat + amount.toNat < 2 ^ 64 ∧
      ps.pool.totalShares.toNat + ps.pool.totals.bought amount.toNat < 2 ^ 64 := by
  have hpool' : (PoolInstruction.deposit accounts amount).pool = p := hpool
  rw [accepts_iff hrun hp hpool']
  refine and_congr_right fun _ ↦ ?_
  constructor
  · rintro ⟨effect, heffect⟩
    obtain ⟨vault, mint, shares, t₁, haccounts, hbuys, htransfer, -⟩ := deposit_eq_ok.mp heffect
    have hbought : shares.toNat = ps.pool.totals.bought amount.toNat :=
      (previewDeposit_eq_ok.mp hbuys.priced).2
    have hpositive := UInt64.lt_iff_toNat_lt.mp hbuys.sharesPositive
    have hassets := effect.state.pool.totalAssets.toNat_lt
    have hshares := effect.state.pool.totalShares.toNat_lt
    rw [hbuys.totalAssets] at hassets
    rw [hbuys.totalShares, hbought] at hshares
    rw [hbought] at hpositive
    have hready := (Deposit.tryAccounts_eq_ok.mp haccounts).1
    have hpays := transferChecked_ready htransfer
    have hvault := hpays.destinationThawed
    rw [hready.vault] at hvault
    exact ⟨hready, ⟨hpays.allowed, hpays.thawed, hvault⟩, hpays.funds, hpositive, hassets, hshares⟩
  · rintro ⟨hready, hdepositable, hheld, hbought, hassets, hshares⟩
    have hcustodial := run_custodial hrun
    have hcustody := hcustodial.custody p ps hp
    have hcounted := holdings_le_totalShares hrun hp
    rw [hcustodial.balanced] at hcounted
    rw [← hpool] at hcustody
    exact exists_deposit hcustodial.balanced hready hcustody.vault hcustody.issuedAlone
      hdepositable hcounted hheld hbought hassets hshares

theorem Chain.withdraws_iff (hrun : run rt trace = .ok s) (hp : s.pools.lookup p = some ps)
    (hpool : accounts.pool = p) :
    (∃ s', step rt ⟨env, .pool (.withdraw accounts shares)⟩ s = .ok s') ↔
      s.pools.lookup accounts.lp = none ∧ DepositReady accounts ps.pool s.tokens ∧
      Withdrawable accounts ps.pool shares s.tokens ∧
      shares.toNat ≤ s.tokens.balance accounts.lpShareAta ∧
      0 < ps.pool.totals.worth shares.toNat ∧
      ps.pool.totals.worth shares.toNat ≤ s.tokens.balance ps.pool.usdcVault ∧
      ps.pool.totals.worth shares.toNat ≤ ps.pool.totalAssets.toNat ∧
      shares.toNat * ps.pool.totals.assets < 2 ^ 128 := by
  have hpool' : (PoolInstruction.withdraw accounts shares).pool = p := hpool
  rw [accepts_iff hrun hp hpool']
  refine and_congr_right fun _ ↦ ?_
  constructor
  · rintro ⟨effect, heffect⟩
    obtain ⟨vault, mint, assets, t₁, haccounts, hredeems, hliquid, hburn, htransfer⟩ :=
      withdraw_eq_ok.mp heffect
    obtain ⟨hready, hvault, -⟩ := Deposit.tryAccounts_eq_ok.mp haccounts
    obtain ⟨hproduct, hworth⟩ := previewRedeem_eq_ok.mp hredeems.priced
    have hworth : assets.toNat = ps.pool.totals.worth shares.toNat := hworth
    have hburns := burn_ready hburn
    have hpays := transferChecked_ready htransfer
    have hfrozen := (burn_flow hburn).persists.isFrozen_iff
    have hwithdrawable : Withdrawable accounts ps.pool shares s.tokens := {
      shares := hburns.allowed
      vault := by
        rw [← hready.vault, ← hfrozen]
        exact hpays.thawed
      lpUsdc := by
        rw [← hfrozen]
        exact hpays.destinationThawed }
    rw [hready.vault] at hvault
    have hbooked := hredeems.totalAssets
    rw [← hworth, TokenLedger.balance_of_lookup hvault]
    exact ⟨hready, hwithdrawable, hburns.funds, UInt64.lt_iff_toNat_lt.mp hredeems.assetsPositive,
      UInt64.le_iff_toNat_le.mp hliquid, by omega, hproduct⟩
  · rintro ⟨hready, hwithdrawable, hheld, hpositive, hliquid, hbooked, hproduct⟩
    have hcustodial := run_custodial hrun
    have hcustody := hcustodial.custody p ps hp
    have hissued := hheld.trans
      (hready.lpShare.balance_le_holdings.trans (holdings_le_totalShares hrun hp))
    have htotal := ps.pool.totalAssets.toNat_lt
    obtain ⟨assets, hworth⟩ : ∃ c : UInt64, c.toNat = ps.pool.totals.worth shares.toNat :=
      UInt64.exists_toNat_eq (by omega)
    have hshares : 0 < shares.toNat := by
      by_contra hzero
      rw [Nat.eq_zero_of_not_pos hzero, Totals.worth, Nat.zero_mul, Nat.zero_div] at hpositive
      exact hpositive.false
    rw [← hworth] at hpositive hliquid hbooked
    rw [← hpool] at hcustody
    obtain ⟨effect, heffect, -⟩ := exists_withdraw hcustodial.balanced hready hcustody.heldAlone
      hcustody.issuedAlone (run_mints_ne hrun hp) hshares hpositive
      (previewRedeem_eq_ok.mpr ⟨hproduct, hworth⟩) hheld hwithdrawable hliquid hbooked hissued
    exact ⟨effect, heffect⟩

theorem Chain.exchanged_of_deposit (hrun : run rt trace = .ok s)
    (hp : s.pools.lookup p = some ps) (hpool : accounts.pool = p)
    (hstep : step rt ⟨env, .pool (.deposit accounts amount)⟩ s = .ok s') :
    ∃ ps', s'.pools.lookup p = some ps' ∧
      Exchanged accounts amount.toNat 0 (ps.pool.totals.bought amount.toNat) 0 s s' ps ps' := by
  have hpool' : (PoolInstruction.deposit accounts amount).pool = p := hpool
  obtain ⟨hlp, effect, heffect, rfl⟩ := (step_pool_iff hrun hp hpool').mp hstep
  obtain ⟨hready, shares, totalAssets, totalShares, -, hpreview, hassets, hshares, hstate, hflow⟩ :=
    deposit_effect heffect
  have hbought : shares.toNat = ps.pool.totals.bought amount.toNat :=
    (previewDeposit_eq_ok.mp hpreview).2
  obtain ⟨hvault, hshareVault, hne⟩ := hready.distinct hrun hp hlp
  rw [← hbought]
  have hflow : Flow s.tokens (s.commit p effect).tokens _ _ _ _ := hflow
  refine ⟨effect.state, Finmap.lookup_insert _, ?_⟩
  exact {
    totalAssets := by rw [hstate, add_zero]; exact hassets
    totalShares := by rw [hstate, add_zero]; exact hshares
    vault := by
      have hbalance := hflow.balance ps.pool.usdcVault
      simpa [Pi.single_apply, hvault.symm, hshareVault.symm] using hbalance
    lpUsdc := by
      have hbalance := hflow.balance accounts.lpUsdcAta
      simpa [Pi.single_apply, hvault, hne] using hbalance
    lpShare := by
      have hbalance := hflow.balance accounts.lpShareAta
      simpa [Pi.single_apply, hshareVault, hne.symm] using hbalance }

theorem Chain.exchanged_of_withdraw (hrun : run rt trace = .ok s)
    (hp : s.pools.lookup p = some ps) (hpool : accounts.pool = p)
    (hstep : step rt ⟨env, .pool (.withdraw accounts shares)⟩ s = .ok s') :
    ∃ ps', s'.pools.lookup p = some ps' ∧
      Exchanged accounts 0 (ps.pool.totals.worth shares.toNat) 0 shares.toNat s s' ps ps' := by
  have hpool' : (PoolInstruction.withdraw accounts shares).pool = p := hpool
  obtain ⟨hlp, effect, heffect, rfl⟩ := (step_pool_iff hrun hp hpool').mp hstep
  obtain ⟨hready, assets, totalAssets, totalShares, hpreview, hassets, hshares, hstate, hflow⟩ :=
    withdraw_effect heffect
  have hworth : assets.toNat = ps.pool.totals.worth shares.toNat :=
    (previewRedeem_eq_ok.mp hpreview).2
  obtain ⟨hvault, hshareVault, hne⟩ := hready.distinct hrun hp hlp
  rw [← hworth]
  have hflow : Flow s.tokens (s.commit p effect).tokens _ _ _ _ := hflow
  refine ⟨effect.state, Finmap.lookup_insert _, ?_⟩
  exact {
    totalAssets := by rw [hstate, add_zero]; exact hassets
    totalShares := by rw [hstate, add_zero]; exact hshares
    vault := by
      have hbalance := hflow.balance ps.pool.usdcVault
      simpa [Pi.single_apply, hvault.symm, hshareVault.symm] using hbalance
    lpUsdc := by
      have hbalance := hflow.balance accounts.lpUsdcAta
      simpa [Pi.single_apply, hvault, hne] using hbalance
    lpShare := by
      have hbalance := hflow.balance accounts.lpShareAta
      simpa [Pi.single_apply, hshareVault, hne.symm] using hbalance }

/-- At every point of every run: a deposit of a provider with the right accounts is accepted exactly
if its account holds the amount, it buys a share at least, and the books can count it; a withdrawal
exactly if the account holds the shares, they are worth an atom at least, and the vault and the
books hold what they are worth. In either case the provider may draw on its account, and no account
of the asset is frozen. And nothing but the price of the shares decides what is exchanged. -/
theorem liquidity_exact (hrun : Chain.run rt trace = .ok s) (hp : s.pools.lookup p = some ps)
    (hpool : accounts.pool = p) :
    (∀ env amount,
      ((∃ s', Chain.step rt ⟨env, .pool (.deposit accounts amount)⟩ s = .ok s') ↔
        s.pools.lookup accounts.lp = none ∧ DepositReady accounts ps.pool s.tokens ∧
        Depositable accounts ps.pool amount s.tokens ∧
        amount.toNat ≤ s.tokens.balance accounts.lpUsdcAta ∧
        0 < ps.pool.totals.bought amount.toNat ∧
        ps.pool.totalAssets.toNat + amount.toNat < 2 ^ 64 ∧
        ps.pool.totalShares.toNat + ps.pool.totals.bought amount.toNat < 2 ^ 64) ∧
      ∀ s', Chain.step rt ⟨env, .pool (.deposit accounts amount)⟩ s = .ok s' →
        ∃ ps', s'.pools.lookup p = some ps' ∧
          Exchanged accounts amount.toNat 0 (ps.pool.totals.bought amount.toNat) 0 s s' ps ps') ∧
    ∀ env shares,
      ((∃ s', Chain.step rt ⟨env, .pool (.withdraw accounts shares)⟩ s = .ok s') ↔
        s.pools.lookup accounts.lp = none ∧ DepositReady accounts ps.pool s.tokens ∧
        Withdrawable accounts ps.pool shares s.tokens ∧
        shares.toNat ≤ s.tokens.balance accounts.lpShareAta ∧
        0 < ps.pool.totals.worth shares.toNat ∧
        ps.pool.totals.worth shares.toNat ≤ s.tokens.balance ps.pool.usdcVault ∧
        ps.pool.totals.worth shares.toNat ≤ ps.pool.totalAssets.toNat ∧
        shares.toNat * ps.pool.totals.assets < 2 ^ 128) ∧
      ∀ s', Chain.step rt ⟨env, .pool (.withdraw accounts shares)⟩ s = .ok s' →
        ∃ ps', s'.pools.lookup p = some ps' ∧
          Exchanged accounts 0 (ps.pool.totals.worth shares.toNat) 0 shares.toNat s s' ps ps' :=
  ⟨fun _ _ ↦ ⟨Chain.deposits_iff hrun hp hpool, fun _ ↦ Chain.exchanged_of_deposit hrun hp hpool⟩,
    fun _ _ ↦ ⟨Chain.withdraws_iff hrun hp hpool,
      fun _ ↦ Chain.exchanged_of_withdraw hrun hp hpool⟩⟩

/-- On localnet the provider deposits the other half of its USDC, to the last atom and no more. -/
theorem liquidity_exact_localnet : ∃ s ps s' ps',
    Chain.run Localnet.runtime Localnet.opening = .ok s ∧
    s.pools.lookup Localnet.pool = some ps ∧
    Chain.step Localnet.runtime (Localnet.plain Localnet.t₀
      (.pool (.deposit Localnet.liquidityAccounts 1000000000))) s = .ok s' ∧
    (∀ s', Chain.step Localnet.runtime (Localnet.plain Localnet.t₀
      (.pool (.deposit Localnet.liquidityAccounts 1000000001))) s ≠ .ok s') ∧
    s'.pools.lookup Localnet.pool = some ps' ∧
    ps'.pool.totalAssets.toNat = 2000000000 ∧ ps'.pool.totalShares.toNat = 2000000000000 := by
  obtain ⟨s, ps, hrun, hp, htest⟩ := Localnet.reaches_iff.mp
    (show Localnet.reaches Localnet.opening (fun s ps ↦
      ps.pool.totalAssets = 1000000000 ∧ ps.pool.totalShares = 1000000000000 ∧
      s.tokens.balance Localnet.lpUsdc = 1000000000 ∧
      Localnet.returns (Chain.step Localnet.runtime (Localnet.plain Localnet.t₀
        (.pool (.deposit Localnet.liquidityAccounts 1000000000))) s) (fun _ ↦ true)) = true by
      decide +kernel)
  obtain ⟨hassets, hshares, hbalance, hreturns⟩ := of_decide_eq_true htest
  obtain ⟨s', hstep, -⟩ := Localnet.returns_iff.mp hreturns
  obtain ⟨hdeposits, -⟩ := @liquidity_exact _ _ _ _ _ Localnet.liquidityAccounts hrun hp rfl
  obtain ⟨ps', hp', hexchanged⟩ := (hdeposits _ _).2 s' hstep
  refine ⟨s, ps, s', ps', hrun, hp, hstep, ?_, hp', ?_, ?_⟩
  · intro more hmore
    obtain ⟨-, -, -, hheld, -⟩ := (hdeposits _ _).1.mp ⟨more, hmore⟩
    have hheld : 1000000001 ≤ s.tokens.balance Localnet.lpUsdc := hheld
    omega
  · have htotal := hexchanged.totalAssets
    rw [hassets] at htotal
    exact htotal
  · have htotal := hexchanged.totalShares
    rw [Totals.bought, Pool.totals, hassets, hshares] at htotal
    exact htotal

end Chain

end CredMesh
