import CredMesh.Safety.SharePrice
import CredMesh.Safety.Solvency

/-!
# What the shares can be redeemed for

The previews price shares on assets that the pool does not have. All claims together can therefore
exceed the assets, but never by more than the virtual ones, and only when the price of a share has
fallen below that of the first deposit: after an advance was written off. As long as it has not, and
everything is in the vault, the providers can leave one after another in any order.
-/

namespace CredMesh

open Escrow Spl VirtualShares

/-- What `preview_redeem` shows for a number of shares, nothing if it fails. -/
def Escrow.Pool.claimOf (pool : Pool) (shares : UInt64) : ℕ :=
  (previewRedeem shares pool.totalAssets pool.totalShares).toOption.elim 0 UInt64.toNat

/-- The claims of all accounts that hold shares of a pool. -/
def Chain.claims (s : Chain) (pool : Pool) : ℕ :=
  s.tokens.accounts.total fun _ account ↦
    if account.mint = pool.shareMint then pool.claimOf account.amount else 0

/-- A share is worth at least as much as when the pool was empty. -/
def Escrow.Pool.AtPar (pool : Pool) : Prop :=
  virtualAssetsOffset.toNat * pool.totalShares.toNat ≤
    pool.totalAssets.toNat * virtualSharesOffset.toNat

instance (pool : Pool) : Decidable pool.AtPar := inferInstanceAs (Decidable (_ ≤ _))

namespace Escrow.Pool

variable {pool pool' : Pool} {shares : UInt64}

/-- The totals of an empty pool. -/
def parTotals : Totals := ⟨virtualAssetsOffset.toNat, virtualSharesOffset.toNat⟩

theorem atPar_iff : pool.AtPar ↔ PriceLe parTotals pool.totals := by
  unfold AtPar PriceLe parTotals totals
  dsimp only
  constructor
  · intro h
    linarith
  · intro h
    linarith

theorem totals_worth (pool : Pool) (held : ℕ) :
    pool.totals.worth held =
      held * (pool.totalAssets.toNat + 10 ^ 6) / (pool.totalShares.toNat + 10 ^ 9) := by
  unfold totals Totals.worth
  rw [virtualAssetsOffset_toNat, virtualSharesOffset_toNat]

/-- A positive claim is one that the preview computes. -/
theorem exists_of_claimOf (h : 0 < pool.claimOf shares) :
    ∃ assets, previewRedeem shares pool.totalAssets pool.totalShares = .ok assets ∧
      pool.claimOf shares = assets.toNat := by
  unfold claimOf at *
  generalize previewRedeem shares pool.totalAssets pool.totalShares = preview at *
  cases preview with
  | ok assets => exact ⟨assets, rfl, rfl⟩
  | error _ => exact absurd h (lt_irrefl 0)

theorem claimOf_le_worth (pool : Pool) (shares : UInt64) :
    pool.claimOf shares ≤ pool.totals.worth shares.toNat := by
  obtain hzero | hpositive := Nat.eq_zero_or_pos (pool.claimOf shares)
  · rw [hzero]
    exact Nat.zero_le _
  · obtain ⟨assets, hpreview, hclaim⟩ := exists_of_claimOf hpositive
    rw [hclaim, totals_worth]
    exact (previewRedeem_eq_ok.mp hpreview).2.le

theorem worth_le_totalAssets (hpar : pool.AtPar) {held : ℕ}
    (hheld : held ≤ pool.totalShares.toNat) :
    pool.totals.worth held ≤ pool.totalAssets.toNat := by
  have hprice := atPar_iff.mp hpar
  unfold totals parTotals at *
  exact worth_le_of_priceLe hprice hheld

/-- At par, shares whose claim did not overflow when there were more assets can be redeemed, for at
least that claim. -/
theorem exists_previewRedeem (hpar : pool'.AtPar) (hissued : shares.toNat ≤ pool'.totalShares.toNat)
    (hclaim : 0 < pool.claimOf shares) (hassets : pool'.totalAssets ≤ pool.totalAssets)
    (hprice : PriceLe pool.totals pool'.totals) :
    ∃ assets, previewRedeem shares pool'.totalAssets pool'.totalShares = .ok assets ∧
      pool.claimOf shares ≤ assets.toNat ∧ assets.toNat ≤ pool'.totalAssets.toNat := by
  have hbooked := worth_le_totalAssets hpar hissued
  have hlt := pool'.totalAssets.toNat_lt
  obtain ⟨assets, hworth⟩ := UInt64.exists_toNat_eq (hbooked.trans_lt hlt)
  have hfits : shares.toNat * (pool'.totalAssets.toNat + 10 ^ 6) < 2 ^ 128 := by
    obtain ⟨_, hshown, -⟩ := exists_of_claimOf hclaim
    have hle := UInt64.le_iff_toNat_le.mp hassets
    calc
      shares.toNat * (pool'.totalAssets.toNat + 10 ^ 6)
        ≤ shares.toNat * (pool.totalAssets.toNat + 10 ^ 6) :=
          Nat.mul_le_mul_left _ (Nat.add_le_add_right hle _)
      _ < 2 ^ 128 := (previewRedeem_eq_ok.mp hshown).1
  refine ⟨assets, previewRedeem_eq_ok.mpr ⟨hfits, hworth.trans (pool'.totals_worth _)⟩, ?_,
    hworth.le.trans hbooked⟩
  rw [hworth]
  calc
    pool.claimOf shares ≤ pool.totals.worth shares.toNat := claimOf_le_worth pool shares
    _ ≤ pool'.totals.worth shares.toNat :=
      hprice.worth_le pool.totals_shares_pos pool'.totals_shares_pos shares.toNat

end Escrow.Pool

/-! ## The claims of a reachable state -/

/-- All claims together are at most what all held shares are worth. -/
theorem Chain.claims_le_worth (s : Chain) (pool : Pool) :
    s.claims pool ≤ pool.totals.worth (s.tokens.holdings pool.shareMint) := by
  let holding (entry : Σ _ : Pubkey, TokenAccount) : ℕ :=
    if entry.2.mint = pool.shareMint then entry.2.amount.toNat else 0
  calc
    s.claims pool ≤
        (s.tokens.accounts.entries.map fun entry ↦ pool.totals.worth (holding entry)).sum := by
      apply Multiset.sum_map_le_sum_map
      intro entry _
      dsimp only [holding]
      split
      case isTrue => exact pool.claimOf_le_worth entry.2.amount
      case isFalse => exact Nat.zero_le _
    _ ≤ pool.totals.worth (s.tokens.accounts.entries.map holding).sum := sum_worth_le _ _ _

/-- In a run without liquidations of the pool its shares stay at par. -/
theorem Chain.run_atPar {rt : Runtime} {trace : List Input} {s : Chain} {p : Pubkey}
    {ps : PoolState} (hrun : run rt trace = .ok s) (hp : s.pools.lookup p = some ps)
    (hdefault : ∀ input ∈ trace, ¬ input.action.Liquidates p) : ps.pool.AtPar := by
  refine Execution.prefix_induction (motive := fun _ state ↦ ∀ ps,
    state.pools.lookup p = some ps → ps.pool.AtPar) ?_ ?_ trace s (List.prefix_refl trace) hrun
    ps hp
  · intro ps hp
    simp [genesis] at hp
  · intro part input s s' hpart _ ih hstep ps' hp'
    have hkept := hdefault input (hpart.subset (by simp))
    cases hp : s.pools.lookup p with
    | none =>
        obtain ⟨_, _, effect, -, -, heffect, rfl, -⟩ := step_new hstep hp hp'
        rw [(initPool_effect heffect).1]
        simp [Pool.AtPar, initialPool]
    | some ps =>
        obtain ⟨found, hfound, hprice⟩ := step_price hstep hp hkept
        obtain rfl : found = ps' := by simpa [hp'] using hfound.symm
        exact Pool.atPar_iff.mpr ((Pool.atPar_iff.mp (ih ps hp)).trans hprice
          ps.pool.totals_shares_pos)

/-! ## Leaving one after another -/

/-- A share account to be emptied, and the account that its assets are paid to. -/
structure Redemption where
  env : Env
  lp : Pubkey
  lpShareAta : Pubkey
  lpUsdcAta : Pubkey
  shares : UInt64

namespace Redemption

def accounts (r : Redemption) (p : Pubkey) (identity : PoolIdentity) : Withdraw where
  lp := r.lp
  pool := p
  usdcVault := identity.usdcVault
  lpUsdcAta := r.lpUsdcAta
  shareMint := identity.shareMint
  lpShareAta := r.lpShareAta
  usdcMint := identity.assetMint

def input (r : Redemption) (p : Pubkey) (identity : PoolIdentity) : Input :=
  ⟨r.env, .pool (.withdraw (r.accounts p identity) r.shares)⟩

/-- The share account holds the shares, its owner can sign, may take them and has an account for the
assets that is not frozen, and the preview shows something for the shares. -/
structure Ready (s : Chain) (pool : Pool) (r : Redemption) : Prop where
  signer : s.pools.lookup r.lp = none
  account : s.tokens.IsAccount r.lpShareAta pool.shareMint r.lp
  holds : s.tokens.balance r.lpShareAta = r.shares.toNat
  allowed : s.tokens.Allows r.lpShareAta r.lp r.shares.toNat
  payee : s.tokens.IsAccount r.lpUsdcAta pool.assetMint r.lp
  thawed : ¬ s.tokens.IsFrozen r.lpUsdcAta
  shown : 0 < pool.claimOf r.shares

/-- A redemption for at least its claim. -/
def Pays (pool : Pool) (r : Redemption) (assets : UInt64) : Prop :=
  pool.claimOf r.shares ≤ assets.toNat

/-- The event of a redemption. -/
def event (p : Pubkey) (r : Redemption) (assets : UInt64) : Event :=
  .withdrew p r.lp r.shares assets

/-- The shares that a list of redemptions takes from an account. -/
def takenFrom (account : Pubkey) (queue : List Redemption) : ℕ :=
  (queue.map fun r ↦ if r.lpShareAta = account then r.shares.toNat else 0).sum

/-- The assets that an account receives from a list of redemptions. -/
def paidTo (account : Pubkey) (queue : List Redemption) (paid : List UInt64) : ℕ :=
  (List.zipWith (fun r assets ↦ if r.lpUsdcAta = account then assets.toNat else 0) queue paid).sum

end Redemption

/-- A reachable state after some redemptions from `pool`: the price has not fallen, and everything
that is booked is in the vault. -/
structure Redeeming (rt : Runtime) (p : Pubkey) (pool : Pool) (s : Chain) (ps : PoolState) :
    Prop where
  reached : ∃ trace, Chain.run rt trace = .ok s
  found : s.pools.lookup p = some ps
  identity : ps.pool.identity = pool.identity
  par : ps.pool.AtPar
  covered : ps.pool.totalAssets.toNat ≤ s.tokens.balance ps.pool.usdcVault
  thawed : ¬ s.tokens.IsFrozen ps.pool.usdcVault
  price : PriceLe pool.totals ps.pool.totals
  assets : ps.pool.totalAssets ≤ pool.totalAssets

section Queue

variable {rt : Runtime} {p : Pubkey} {pool : Pool} {s : Chain} {ps : PoolState} {r : Redemption}
  {effect : Effect}

/-- Each redemption is accepted and paid at least its claim, and its accounts move by that. -/
theorem Redeeming.accepts (h : Redeeming rt p pool s ps) (hready : r.Ready s pool) :
    ∃ effect assets, withdraw (r.accounts p ps.pool.identity) r.shares ps s.tokens = .ok effect ∧
      effect.event = r.event p assets ∧ r.Pays pool assets ∧
      ∀ account, account ≠ ps.pool.usdcVault →
        effect.tokens.balance account + (if r.lpShareAta = account then r.shares.toNat else 0) =
          s.tokens.balance account + if r.lpUsdcAta = account then assets.toNat else 0 := by
  obtain ⟨trace, hrun⟩ := h.reached
  have hcustodial := Chain.run_custodial hrun
  have hcustody := hcustodial.custody p ps h.found
  have hshareMint : ps.pool.shareMint = pool.shareMint :=
    congrArg PoolIdentity.shareMint h.identity
  have hassetMint : ps.pool.assetMint = pool.assetMint :=
    congrArg PoolIdentity.assetMint h.identity
  have hdeposit : DepositReady (r.accounts p ps.pool.identity) ps.pool s.tokens :=
    ⟨rfl, rfl, rfl, hassetMint ▸ hready.payee, hshareMint ▸ hready.account⟩
  have hissued : r.shares.toNat ≤ ps.pool.totalShares.toNat := by
    rw [← hready.holds]
    exact hdeposit.lpShare.balance_le_holdings.trans (holdings_le_totalShares hrun h.found)
  obtain ⟨assets, hpreview, hclaim, hbooked⟩ :=
    Pool.exists_previewRedeem h.par hissued hready.shown h.assets h.price
  have hpositive : 0 < assets.toNat := hready.shown.trans_le hclaim
  have hshares : 0 < r.shares.toNat := by
    by_contra hzero
    have hworth := (previewRedeem_eq_ok.mp hpreview).2
    rw [Nat.eq_zero_of_not_pos hzero, zero_mul, Nat.zero_div] at hworth
    omega
  obtain ⟨effect, heffect, hevent⟩ := exists_withdraw hcustodial.balanced hdeposit
    hcustody.heldAlone hcustody.issuedAlone (Chain.run_mints_ne hrun h.found) hshares hpositive
    hpreview hready.holds.ge ⟨hready.allowed, h.thawed, hready.thawed⟩ (hbooked.trans h.covered)
    hbooked hissued
  refine ⟨effect, assets, heffect, hevent, hclaim, fun account hne ↦ ?_⟩
  obtain ⟨-, paid, -, -, hpaid, -, -, -, hflow⟩ := withdraw_effect heffect
  obtain rfl : assets = paid := Except.ok.inj (hpreview.symm.trans hpaid)
  have hbalance := hflow.balance account
  simp only [Pi.add_apply, Pi.single_eq_of_ne hne, add_zero, Pi.single_apply,
    eq_comm (a := account)] at hbalance
  exact hbalance

/-- What a redemption takes out of the vault it takes out of the books. -/
theorem Redeeming.next (h : Redeeming rt p pool s ps) (hsigner : s.pools.lookup r.lp = none)
    (heffect : withdraw (r.accounts p ps.pool.identity) r.shares ps s.tokens = .ok effect)
    (hstep : Chain.step rt (r.input p pool.identity) s = .ok (s.commit p effect)) :
    Redeeming rt p pool (s.commit p effect) effect.state := by
  obtain ⟨trace, hrun⟩ := h.reached
  have hcustody := (Chain.run_custodial hrun).custody p ps h.found
  have hmints := Chain.run_mints_ne hrun h.found
  have hhandled : PoolInstruction.handler rt r.env s.registry ps s.tokens
    (.withdraw (r.accounts p ps.pool.identity) r.shares) = .ok effect := heffect
  have hprice : PriceLe ps.pool.totals effect.state.pool.totals :=
    PoolInstruction.handler_price hhandled (by simp)
  obtain ⟨hdeposit, paid, totalAssets, totalShares, -, hremaining, -, hstate, hflow⟩ :=
    withdraw_effect heffect
  constructor
  case reached =>
    exact ⟨trace ++ [r.input p pool.identity], Execution.run_snoc.mpr ⟨s, hrun, hstep⟩⟩
  case found => exact Finmap.lookup_insert s.pools
  case identity => exact (PoolInstruction.handler_identity hhandled).trans h.identity
  case par =>
    exact Pool.atPar_iff.mpr ((Pool.atPar_iff.mp h.par).trans hprice ps.pool.totals_shares_pos)
  case covered =>
    have hshare := hcustody.vault.ne_of_mint hdeposit.lpShare hmints
    have husdc : ps.pool.usdcVault ≠ (r.accounts p ps.pool.identity).lpUsdcAta := by
      refine hcustody.vault.ne_of_owner hdeposit.lpUsdc fun (hsame : p = r.lp) ↦ ?_
      rw [← hsame, h.found] at hsigner
      cases hsigner
    have hbalance := hflow.balance ps.pool.usdcVault
    have hcovered := h.covered
    simp only [Pi.add_apply, Pi.single_eq_same, Pi.single_eq_of_ne hshare,
      Pi.single_eq_of_ne husdc, zero_add, add_zero] at hbalance
    rw [hstate]
    dsimp only [Chain.commit]
    omega
  case thawed =>
    rw [show effect.state.pool.usdcVault = ps.pool.usdcVault by rw [hstate]]
    exact (hflow.persists.isFrozen_iff _).not.mpr h.thawed
  case price => exact h.price.trans hprice ps.pool.totals_shares_pos
  case assets =>
    have hassets := UInt64.le_iff_toNat_le.mp h.assets
    rw [hstate, UInt64.le_iff_toNat_le]
    dsimp only
    omega

/-- A redemption leaves those from other share accounts as they were. -/
theorem Redemption.Ready.kept {other : Redemption} (h : Redeeming rt p pool s ps)
    (hother : other.Ready s pool) (hne : other.lpShareAta ≠ r.lpShareAta)
    (heffect : withdraw (r.accounts p ps.pool.identity) r.shares ps s.tokens = .ok effect) :
    other.Ready (s.commit p effect) pool := by
  obtain ⟨trace, hrun⟩ := h.reached
  have hcustody := (Chain.run_custodial hrun).custody p ps h.found
  have hmints := Chain.run_mints_ne hrun h.found
  have hshareMint : ps.pool.shareMint = pool.shareMint :=
    congrArg PoolIdentity.shareMint h.identity
  obtain ⟨hdeposit, paid, -, -, -, -, -, -, hflow⟩ := withdraw_effect heffect
  have haccount : s.tokens.IsAccount other.lpShareAta ps.pool.shareMint other.lp :=
    hshareMint ▸ hother.account
  have hvault := (hcustody.vault.ne_of_mint haccount hmints).symm
  have husdc := (hdeposit.lpUsdc.ne_of_mint haccount hmints).symm
  have hframe := withdraw_accounts heffect hne hvault husdc
  constructor
  case signer =>
    have hpool : other.lp ≠ p := by
      intro hsame
      have hsigner := hother.signer
      rw [hsame, h.found] at hsigner
      cases hsigner
    exact (Finmap.lookup_insert_of_ne s.pools hpool).trans hother.signer
  case account => exact hflow.persists.account _ _ _ hother.account
  case holds =>
    have hheld : effect.tokens.balance other.lpShareAta = s.tokens.balance other.lpShareAta := by
      rw [TokenLedger.balance, TokenLedger.balance, hframe]
    exact hheld.trans hother.holds
  case allowed =>
    obtain ⟨account, hfound, hallowed⟩ := hother.allowed
    exact ⟨account, hframe.trans hfound, hallowed⟩
  case payee => exact hflow.persists.account _ _ _ hother.payee
  case thawed => exact (hflow.persists.isFrozen_iff _).not.mpr hother.thawed
  case shown => exact hother.shown

/-- Redemptions from different share accounts are all accepted, in the order in which they come. -/
theorem Redeeming.run {queue : List Redemption} (h : Redeeming rt p pool s ps)
    (hdistinct : (queue.map Redemption.lpShareAta).Nodup) (hready : ∀ r ∈ queue, r.Ready s pool) :
    ∃ s' paid, Execution.run (Chain.step rt) s (queue.map fun r ↦ r.input p pool.identity) =
        .ok s' ∧
      List.Forall₂ (Redemption.Pays pool) queue paid ∧
      s'.events = s.events ++ List.zipWith (Redemption.event p) queue paid ∧
      ∀ account, account ≠ pool.usdcVault →
        s'.tokens.balance account + Redemption.takenFrom account queue =
          s.tokens.balance account + Redemption.paidTo account queue paid := by
  induction queue generalizing s ps with
  | nil => exact ⟨s, [], rfl, .nil, by simp, fun _ _ ↦ rfl⟩
  | cons r queue ih =>
      obtain ⟨hfirst, hrest⟩ := List.forall_mem_cons.mp hready
      obtain ⟨hfresh, hdistinct⟩ := List.nodup_cons.mp hdistinct
      obtain ⟨trace, hrun⟩ := h.reached
      have hcustody := (Chain.run_custodial hrun).custody p ps h.found
      obtain ⟨effect, assets, heffect, hevent, hpays, hmoved⟩ := h.accepts hfirst
      have hvault : ps.pool.usdcVault = pool.usdcVault := congrArg PoolIdentity.usdcVault h.identity
      have hstep : Chain.step rt (r.input p pool.identity) s = .ok (s.commit p effect) := by
        rw [← h.identity]
        exact Chain.step_pool hfirst.signer h.found hcustody.seeds heffect
      have hkept : ∀ other ∈ queue, other.Ready (s.commit p effect) pool := by
        intro other hmem
        refine (hrest other hmem).kept h (fun hsame ↦ hfresh ?_) heffect
        rw [← hsame]
        exact List.mem_map_of_mem hmem
      obtain ⟨s', paid, hqueue, hpaid, hevents, hbalances⟩ :=
        ih (h.next hfirst.signer heffect hstep) hdistinct hkept
      refine ⟨s', assets :: paid, ?_, .cons hpays hpaid, ?_, fun account hne ↦ ?_⟩
      · exact Outcome.bind_eq_ok.mpr ⟨_, hstep, hqueue⟩
      · rw [hevents, List.zipWith_cons_cons, ← hevent]
        simp [Chain.commit]
      · have hbefore := hmoved account (by rwa [hvault])
        have hafter := hbalances account hne
        simp only [Redemption.takenFrom, Redemption.paidTo, List.map_cons, List.sum_cons,
          List.zipWith_cons_cons] at hafter ⊢
        dsimp only [Chain.commit] at hafter
        omega

end Queue

variable {rt : Runtime} {trace : List Input} {s : Chain} {p : Pubkey} {ps : PoolState}

/-- In every reachable state the claims of all holders together exceed the assets by at most the
virtual ones. While a share is worth at least as much as when the pool was empty, which it is in
every run without liquidations of the pool, the assets cover the claims; and if moreover nothing is
deployed and the vault is not frozen and holds what is booked, every list of holders with positive
claims can redeem all their shares in its order, each for at least its claim, and their accounts
move by just that. -/
theorem claims_covered (hrun : Chain.run rt trace = .ok s) (hp : s.pools.lookup p = some ps) :
    s.claims ps.pool ≤ ps.pool.totalAssets.toNat + virtualAssetsOffset.toNat ∧
    ((∀ input ∈ trace, ¬ input.action.Liquidates p) → ps.pool.AtPar) ∧
    (ps.pool.AtPar → s.claims ps.pool ≤ ps.pool.totalAssets.toNat ∧
      (ps.pool.deployedAmount = 0 → ps.pool.idle ≤ s.tokens.balance ps.pool.usdcVault →
        ¬ s.tokens.IsFrozen ps.pool.usdcVault →
        ∀ queue : List Redemption, (queue.map Redemption.lpShareAta).Nodup →
          (∀ r ∈ queue, r.Ready s ps.pool) →
          ∃ s' paid,
            Execution.run (Chain.step rt) s (queue.map fun r ↦ r.input p ps.pool.identity) =
              .ok s' ∧
            List.Forall₂ (Redemption.Pays ps.pool) queue paid ∧
            s'.events = s.events ++ List.zipWith (Redemption.event p) queue paid ∧
            ∀ account, account ≠ ps.pool.usdcVault →
              s'.tokens.balance account + Redemption.takenFrom account queue =
                s.tokens.balance account + Redemption.paidTo account queue paid)) := by
  have hclaims := s.claims_le_worth ps.pool
  have hheld := holdings_le_totalShares hrun hp
  refine ⟨?_, Chain.run_atPar hrun hp, fun hpar ↦ ⟨?_, ?_⟩⟩
  · apply hclaims.trans
    exact worth_le_assets (hheld.trans (Nat.le_add_right _ _))
  · exact hclaims.trans (Pool.worth_le_totalAssets hpar hheld)
  · intro hdeployed hcovered hthawed queue hdistinct hready
    have hvault : ps.pool.totalAssets.toNat ≤ s.tokens.balance ps.pool.usdcVault := by
      rw [Pool.idle, hdeployed] at hcovered
      simpa using hcovered
    have hredeeming : Redeeming rt p ps.pool s ps := ⟨⟨trace, hrun⟩, hp, rfl, hpar, hvault,
      hthawed, PriceLe.refl _, UInt64.le_refl _⟩
    exact hredeeming.run hdistinct hready

namespace Localnet

/-- The provider redeems all its shares. -/
def redemption : Redemption := ⟨⟨t₀ + 100, ⟨[], 0⟩⟩, lp, lpShare, lpUsdc, 1000000000000⟩

end Localnet

/-- The only provider of the pool takes out everything. -/
theorem claims_covered_localnet : ∃ s s' ps paid,
    Chain.run Localnet.runtime Localnet.opening = .ok s ∧
    s.pools.lookup Localnet.pool = some ps ∧ s.claims ps.pool ≤ ps.pool.totalAssets.toNat ∧
    Execution.run (Chain.step Localnet.runtime) s
      [Localnet.redemption.input Localnet.pool ps.pool.identity] = .ok s' ∧
    List.Forall₂ (Redemption.Pays ps.pool) [Localnet.redemption] paid ∧
    s'.tokens.balance Localnet.lpUsdc =
      s.tokens.balance Localnet.lpUsdc +
        Redemption.paidTo Localnet.lpUsdc [Localnet.redemption] paid := by
  obtain ⟨s, ps, hrun, hp, htest⟩ := Localnet.reaches_iff.mp
    (show Localnet.reaches Localnet.opening (fun s ps ↦
      ps.pool.deployedAmount = 0 ∧ ps.pool.idle ≤ s.tokens.balance ps.pool.usdcVault ∧
      ¬ s.tokens.IsFrozen ps.pool.usdcVault ∧ Localnet.lpUsdc ≠ ps.pool.usdcVault ∧
      s.pools.lookup Localnet.lp = none ∧
      s.tokens.IsAccount Localnet.lpShare ps.pool.shareMint Localnet.lp ∧
      s.tokens.balance Localnet.lpShare = 1000000000000 ∧
      s.tokens.Allows Localnet.lpShare Localnet.lp 1000000000000 ∧
      s.tokens.IsAccount Localnet.lpUsdc ps.pool.assetMint Localnet.lp ∧
      ¬ s.tokens.IsFrozen Localnet.lpUsdc ∧
      0 < ps.pool.claimOf 1000000000000) = true by decide +kernel)
  obtain ⟨hdeployed, hidle, hvault, hne, hready⟩ := of_decide_eq_true htest
  obtain ⟨hsigner, haccount, hholds, hallowed, hpayee, hthawed, hshown⟩ := hready
  have hready : ∀ r ∈ [Localnet.redemption], r.Ready s ps.pool :=
    List.forall_mem_singleton.mpr
      ⟨hsigner, haccount, hholds, hallowed, hpayee, hthawed, hshown⟩
  obtain ⟨-, hpar, hcovered⟩ := claims_covered hrun hp
  have hdefault : ∀ input ∈ Localnet.opening, ¬ input.action.Liquidates Localnet.pool := by
    simp [Localnet.opening, Localnet.plain, Action.Liquidates]
  obtain ⟨hclaims, hqueue⟩ := hcovered (hpar hdefault)
  obtain ⟨s', paid, hredeemed, hpaid, -, hbalances⟩ :=
    hqueue hdeployed hidle hvault [Localnet.redemption] (List.nodup_singleton _) hready
  exact ⟨s, s', ps, paid, hrun, hp, hclaims, hredeemed, hpaid, hbalances Localnet.lpUsdc hne⟩

/-- After a default of a tenth of the assets, the claims of the only provider are worth 0.0999 USDC
more than there is, and it cannot redeem its shares although nothing is deployed. -/
theorem default_uncovers_claims : ∃ s ps,
    Chain.run Localnet.runtime Localnet.defaulted = .ok s ∧
    s.pools.lookup Localnet.pool = some ps ∧ ps.pool.deployedAmount = 0 ∧
    ps.pool.totalAssets.toNat = 900000000 ∧ s.claims ps.pool = 900099900 ∧
    Chain.step Localnet.runtime (Localnet.redemption.input Localnet.pool ps.pool.identity) s =
      .error (.credmesh .insufficientIdleLiquidity) := by
  obtain ⟨s, ps, hrun, hp, htest⟩ := Localnet.reaches_iff.mp
    (show Localnet.reaches Localnet.defaulted (fun s ps ↦
      ps.pool.deployedAmount = 0 ∧ ps.pool.totalAssets.toNat = 900000000 ∧
      s.claims ps.pool = 900099900 ∧
      Localnet.rejects s (Localnet.redemption.input Localnet.pool ps.pool.identity)
        (.credmesh .insufficientIdleLiquidity)) = true by decide +kernel)
  obtain ⟨hdeployed, hassets, hclaims, hrejects⟩ := of_decide_eq_true htest
  exact ⟨s, ps, hrun, hp, hdeployed, hassets, hclaims, Localnet.rejects_iff.mp hrejects⟩

end CredMesh
