import CredMesh.Chain.Custody
import CredMesh.Chain.Localnet

/-!
# Solvency

The pool's counters against the token program's. The vault holds the idle assets, plus what was
sent to it directly, minus what was skimmed; the share counter is the supply plus what holders
burned directly. The protocol's part of a fee goes to the treasury when an advance is settled and
is never in the vault, so each later skim of it comes out of the idle assets.
-/

namespace CredMesh

open Escrow Spl

/-- The assets that are booked and not deployed. -/
def Escrow.Pool.idle (pool : Pool) : ℤ :=
  pool.totalAssets.toNat - pool.deployedAmount.toNat

theorem Escrow.Pool.looped_eq_zero {pool : Pool} (h : pool.treasuryAta ≠ pool.usdcVault)
    (amount : ℕ) : pool.looped amount = 0 :=
  if_neg (Ne.symm h)

theorem Action.skimmed_eq_zero {p : Pubkey} {action : Action} (h : ¬ action.IsOn p) :
    action.skimmed p = 0 := by
  unfold Action.skimmed
  split
  case h_1 accounts amount => exact if_neg fun heq ↦ h ⟨_, rfl, heq⟩
  case h_2 => rfl

namespace PoolStep

variable {rt : Runtime} {r : Registry.RegistryState} {env : Env} {p : Pubkey} {action : Action}
  {b b' : Books}

/-- One step moves the vault by the change of the idle assets, the direct transfers and the
skim. -/
theorem vault_change (h : PoolStep rt r env p action b b')
    (htreasury : b.state.pool.treasuryAta ≠ b.state.pool.usdcVault) :
    (b'.vault : ℤ) - b.vault = b'.state.pool.idle - b.state.pool.idle +
      action.directlySent b.state.pool.usdcVault - action.skimmed p := by
  cases h with
  | deposit _ _ _ hassets _ =>
      simp only [Pool.idle, Action.directlySent, Action.skimmed]
      omega
  | withdraw _ _ hbooked _ hvault _ =>
      simp only [Pool.idle, Action.directlySent, Action.skimmed]
      omega
  | issue _ hissues hvault =>
      have hdeployed := hissues.deployed
      simp only [Pool.idle, Action.directlySent, Action.skimmed, hissues.totalAssets]
      omega
  | settle _ hsettles =>
      obtain ⟨_, _, -, -, -, hsplits⟩ := waterfall_eq_ok.mp hsettles.divided
      have hassets := hsettles.assets
      have hdeployed := hsettles.closes.deployed
      have hcut := hsplits.lpCut
      simp only [Pool.idle, Action.directlySent, Action.skimmed, Pool.looped_eq_zero htreasury]
      omega
  | liquidate _ hliquidates =>
      have hassets := hliquidates.assets
      have hdeployed := hliquidates.closes.deployed
      simp only [Pool.idle, Action.directlySent, Action.skimmed]
      omega
  | propose _ _ _ =>
      simp only [Pool.idle, Action.directlySent, Action.skimmed]
      omega
  | execute _ _ _ =>
      simp only [Pool.idle, Action.directlySent, Action.skimmed]
      omega
  | skim hpool _ hvault =>
      simp only [Pool.idle, Action.directlySent, Action.skimmed, if_pos hpool]
      rw [Pool.looped_eq_zero htreasury] at hvault
      omega
  | outside helsewhere _ =>
      rw [Action.skimmed_eq_zero helsewhere]
      simp only [Pool.idle]
      omega

/-- One step moves the share counter with the supply, direct burns apart. -/
theorem shares_change (h : PoolStep rt r env p action b b') :
    b'.state.pool.totalShares.toNat + b.supply =
      b.state.pool.totalShares.toNat + b'.supply +
        action.directlyBurned b.state.pool.shareMint := by
  cases h with
  | deposit _ _ _ _ htotal =>
      simp only [Action.directlyBurned]
      omega
  | withdraw _ _ _ htotal _ hsupply =>
      simp only [Action.directlyBurned]
      omega
  | issue _ hissues _ =>
      rw [congrArg Pool.totalShares hissues.pool]
      rfl
  | settle _ hsettles =>
      rw [congrArg Pool.totalShares hsettles.pool]
      rfl
  | liquidate _ hliquidates =>
      rw [congrArg Pool.totalShares hliquidates.pool]
      rfl
  | outside _ hsupply =>
      dsimp only
      omega
  | _ => rfl

end PoolStep

namespace PoolRun

variable {rt : Runtime} {p : Pubkey} {trace : List Input} {b : Books}

theorem skimmed_before {before : List Input} (h : ∀ input ∈ before, ¬ input.action.IsOn p) :
    totalSkimmed p before = 0 := by
  refine List.sum_eq_zero fun amount hamount ↦ ?_
  obtain ⟨input, hinput, rfl⟩ := List.mem_map.mp hamount
  exact Action.skimmed_eq_zero (h input hinput)

/-- Over a whole history the vault holds the idle assets and the direct transfers, less the
skims. -/
theorem vault_eq (h : PoolRun rt p trace b)
    (htreasury : b.state.pool.treasuryAta ≠ b.state.pool.usdcVault) :
    (b.vault : ℤ) + totalSkimmed p trace =
      b.state.pool.idle + totalSent b.state.pool.usdcVault trace := by
  induction h with
  | create haction _ hsent _ helsewhere =>
      simp only [totalSent_snoc, totalSkimmed_snoc, initialPool, hsent,
        skimmed_before helsewhere, haction]
      rfl
  | step _ hstep ih =>
      obtain ⟨-, hvault, -, htreasuryAta, -⟩ := hstep.identity
      rw [hvault, htreasuryAta] at htreasury
      have hchange := hstep.vault_change htreasury
      have hbefore := ih htreasury
      rw [hvault, totalSent_snoc_open _ _ _ hstep.closes_eq_false, totalSkimmed_snoc]
      push_cast
      omega

theorem totalShares_eq (h : PoolRun rt p trace b) :
    b.state.pool.totalShares.toNat = b.supply + totalBurned b.state.pool.shareMint trace := by
  induction h with
  | create haction _ _ hburned _ =>
      simp only [totalBurned_snoc, initialPool, hburned, haction]
      rfl
  | step _ hstep ih =>
      obtain ⟨-, -, hshare, -⟩ := hstep.identity
      have hchange := hstep.shares_change
      rw [hshare, totalBurned_snoc]
      omega

end PoolRun

variable {rt : Runtime} {trace : List Input} {s : Chain} {p : Pubkey} {ps : PoolState}

theorem holdings_le_totalShares (hrun : Chain.run rt trace = .ok s)
    (hp : s.pools.lookup p = some ps) :
    s.tokens.holdings ps.pool.shareMint ≤ ps.pool.totalShares.toNat := by
  have hshares := (Chain.run_poolRun hrun hp).totalShares_eq
  simp only [Chain.books] at hshares
  rw [(Chain.run_custodial hrun).balanced]
  omega

/-- The pool's books match the token program's, so the shares in circulation are all counted and
a withdrawal that could burn its shares can also subtract them. -/
theorem books_match (hrun : Chain.run rt trace = .ok s) (hp : s.pools.lookup p = some ps)
    (htreasury : ps.pool.treasuryAta ≠ ps.pool.usdcVault) :
    (s.tokens.balance ps.pool.usdcVault : ℤ) + totalSkimmed p trace =
      ps.pool.totalAssets.toNat - ps.pool.deployedAmount.toNat +
        totalSent ps.pool.usdcVault trace ∧
    ps.pool.totalShares.toNat =
      s.tokens.supply ps.pool.shareMint + totalBurned ps.pool.shareMint trace ∧
    s.tokens.holdings ps.pool.shareMint ≤ ps.pool.totalShares.toNat ∧
    ∀ (accounts : Withdraw) (shares : UInt64) (t : TokenLedger),
      Spl.burn accounts.lpShareAta ps.pool.shareMint accounts.lp shares s.tokens = .ok t →
        (ps.pool.totalShares.checkedSub shares).isSome := by
  have hbooks := Chain.run_poolRun hrun hp
  have hheld := holdings_le_totalShares hrun hp
  refine ⟨hbooks.vault_eq htreasury, hbooks.totalShares_eq, hheld, fun accounts shares t hburn ↦ ?_⟩
  have hready := burn_ready hburn
  obtain ⟨_, haccount⟩ := hready.source
  have hfunds := hready.funds
  have hle := haccount.balance_le_holdings
  rw [UInt64.checkedSub_isSome]
  omega

namespace Localnet

/-- An advance of 100 USDC that is settled, with the fee paid on time. -/
def settledAdvance : List Input := opening ++ [
  firstRequest 100000000,
  plain (t₀ + 50) (.token (.mintTo usdcMint agentUsdc faucet 10000000)),
  settle 1 110000000 (t₀ + 100) textNonce.toList]

/-- The protocol's part of that fee, skimmed; then a transfer into the vault and a burn of
shares, both direct. -/
def directTransfers : List Input := settledAdvance ++ [
  skim 375000 (t₀ + 200),
  plain (t₀ + 300) (.token (.transfer lpUsdc usdcMint usdcVault lp 5000000 6)),
  plain (t₀ + 400) (.token (.burn lpShare shareMint lp 1000))]

end Localnet

theorem books_match_localnet : ∃ s ps, Chain.run Localnet.runtime Localnet.directTransfers = .ok s ∧
    s.pools.lookup Localnet.pool = some ps ∧
    s.tokens.balance ps.pool.usdcVault = 1006750000 ∧
    (s.tokens.balance ps.pool.usdcVault : ℤ) +
        totalSkimmed Localnet.pool Localnet.directTransfers =
      ps.pool.totalAssets.toNat - ps.pool.deployedAmount.toNat +
        totalSent ps.pool.usdcVault Localnet.directTransfers ∧
    ps.pool.totalShares.toNat = s.tokens.supply ps.pool.shareMint +
      totalBurned ps.pool.shareMint Localnet.directTransfers := by
  obtain ⟨s, ps, hrun, hp, htest⟩ := Localnet.reaches_iff.mp
    (show Localnet.reaches Localnet.directTransfers (fun s ps ↦
      s.tokens.balance ps.pool.usdcVault = 1006750000 ∧
      ps.pool.treasuryAta ≠ ps.pool.usdcVault) = true by decide +kernel)
  obtain ⟨hbalance, htreasury⟩ := of_decide_eq_true htest
  obtain ⟨hvault, hshares, -⟩ := books_match hrun hp htreasury
  exact ⟨s, ps, hrun, hp, hbalance, hvault, hshares⟩

/-- The vault covers the idle assets exactly as long as no more was skimmed than was sent to it
directly. -/
theorem vault_covers_idle_iff (hrun : Chain.run rt trace = .ok s)
    (hp : s.pools.lookup p = some ps) (htreasury : ps.pool.treasuryAta ≠ ps.pool.usdcVault) :
    (ps.pool.totalAssets.toNat - ps.pool.deployedAmount.toNat : ℤ) ≤
        s.tokens.balance ps.pool.usdcVault ↔
      totalSkimmed p trace ≤ totalSent ps.pool.usdcVault trace := by
  have hvault := (Chain.run_poolRun hrun hp).vault_eq htreasury
  simp only [Chain.books, Pool.idle] at hvault
  omega

/-- Before the skim the vault covers the idle assets. -/
theorem vault_covers_idle_iff_localnet : ∃ s ps,
    Chain.run Localnet.runtime Localnet.settledAdvance = .ok s ∧
    s.pools.lookup Localnet.pool = some ps ∧
    (ps.pool.totalAssets.toNat - ps.pool.deployedAmount.toNat : ℤ) ≤
      s.tokens.balance ps.pool.usdcVault := by
  obtain ⟨s, ps, hrun, hp, htest⟩ := Localnet.reaches_iff.mp
    (show Localnet.reaches Localnet.settledAdvance (fun _ ps ↦
      ps.pool.treasuryAta ≠ ps.pool.usdcVault ∧
      totalSkimmed Localnet.pool Localnet.settledAdvance ≤
        totalSent ps.pool.usdcVault Localnet.settledAdvance) = true by decide +kernel)
  obtain ⟨htreasury, hskimmed⟩ := of_decide_eq_true htest
  exact ⟨s, ps, hrun, hp, (vault_covers_idle_iff hrun hp htreasury).mpr hskimmed⟩

/-- The settled fee was split into 2.125 USDC for the vault and 0.375 USDC for the treasury;
skimming the second part again takes it from the idle assets. -/
theorem skim_leaves_vault_short : ∃ s ps,
    Chain.run Localnet.runtime
      (Localnet.settledAdvance ++ [Localnet.skim 375000 (Localnet.t₀ + 200)]) = .ok s ∧
    s.pools.lookup Localnet.pool = some ps ∧ ps.pool.treasuryAta ≠ ps.pool.usdcVault ∧
    (s.tokens.balance ps.pool.usdcVault : ℤ) <
      ps.pool.totalAssets.toNat - ps.pool.deployedAmount.toNat := by
  obtain ⟨s, ps, hrun, hp, htest⟩ := Localnet.reaches_iff.mp
    (show Localnet.reaches
      (Localnet.settledAdvance ++ [Localnet.skim 375000 (Localnet.t₀ + 200)]) (fun s ps ↦
        ps.pool.treasuryAta ≠ ps.pool.usdcVault ∧
        (s.tokens.balance ps.pool.usdcVault : ℤ) <
          ps.pool.totalAssets.toNat - ps.pool.deployedAmount.toNat) = true by decide +kernel)
  obtain ⟨htreasury, hshort⟩ := of_decide_eq_true htest
  exact ⟨s, ps, hrun, hp, htreasury, hshort⟩

end CredMesh
