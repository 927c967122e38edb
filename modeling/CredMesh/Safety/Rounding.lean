import CredMesh.Safety.SharePrice

/-!
# What rounding costs a provider

Deposits and redemptions round in favour of the pool. A provider that turns around at once loses
less than the price of one share and one atom, and gains nothing; neither does one that enters or
leaves in parts, nor one that enters an empty pool and raises its price before others enter.
-/

namespace CredMesh

open Escrow Spl VirtualShares

/-! ## Turning around -/

/-- The product formed by a redemption right after a deposit fits in 128 bits, although the totals
with their virtual amounts may exceed 64. -/
theorem redeemed_product_lt {assets shares amount bought : ℕ}
    (hassets : assets + amount < 2 ^ 64) (hshares : shares + bought < 2 ^ 64)
    (hbought : bought = amount * (shares + 10 ^ 9) / (assets + 10 ^ 6)) :
    bought * (assets + amount + 10 ^ 6) < 2 ^ 128 := by
  have hlow : bought * (assets + 10 ^ 6) ≤ amount * (shares + 10 ^ 9) := by
    rw [hbought]
    exact Nat.div_mul_le_self _ _
  have hhigh : amount * (shares + 10 ^ 9) < bought * (assets + 10 ^ 6) + (assets + 10 ^ 6) := by
    rw [hbought]
    exact Nat.lt_div_mul_add (Nat.add_pos_right _ (by norm_num))
  by_contra! hproduct
  -- both factors are close to 2 ^ 64
  have hfactor : 2 ^ 64 - 10 ^ 6 < bought := by
    by_contra! hsmall
    have := Nat.mul_le_mul hsmall (show assets + amount + 10 ^ 6 ≤ 2 ^ 64 + 10 ^ 6 by omega)
    omega
  have htotal : 2 ^ 64 < assets + amount + 10 ^ 6 := by
    by_contra! hsmall
    have := Nat.mul_le_mul (show bought ≤ 2 ^ 64 - 1 by omega) hsmall
    omega
  obtain hprice | hprice := le_or_gt (shares + 10 ^ 9) (assets + 10 ^ 6)
  · -- a share costs at least one atom, so there are as many atoms as shares
    have hle : bought ≤ amount := by
      apply Nat.le_of_mul_le_mul_right _ (show 0 < assets + 10 ^ 6 by omega)
      exact hlow.trans (Nat.mul_le_mul_left _ hprice)
    omega
  · -- otherwise so many atoms buy more shares than there can be
    have hmore := Nat.mul_le_mul_left amount (show assets + 10 ^ 6 + 1 ≤ shares + 10 ^ 9 by omega)
    have hgap : amount < (bought + 1 - amount) * (assets + 10 ^ 6) := by
      rw [Nat.sub_mul]
      rw [Nat.mul_add] at hmore
      have hexpand : (bought + 1) * (assets + 10 ^ 6) =
          bought * (assets + 10 ^ 6) + (assets + 10 ^ 6) := Nat.succ_mul _ _
      omega
    have hsquare := Nat.mul_le_mul (show bought + 1 - amount ≤ 2 * 10 ^ 9 by omega)
      (show assets + 10 ^ 6 ≤ 2 * 10 ^ 9 by omega)
    omega

/-- For every deposit that goes through, redeeming the new shares at once is defined and returns at
most the amount, and less by less than one atom and the price of a share before the deposit. -/
theorem deposit_redeem_round_trip {amount totalAssets totalShares shares totalAssets' totalShares' :
    UInt64} (hdeposit : previewDeposit amount totalAssets totalShares = .ok shares)
    (hassets : totalAssets'.toNat = totalAssets.toNat + amount.toNat)
    (hshares : totalShares'.toNat = totalShares.toNat + shares.toNat) :
    ∃ redeemed, previewRedeem shares totalAssets' totalShares' = .ok redeemed ∧
      redeemed ≤ amount ∧
      (amount.toNat : ℚ) - redeemed.toNat <
        1 + (totalAssets.toNat + 10 ^ 6) / (totalShares.toNat + 10 ^ 9) := by
  have hassets' := totalAssets'.toNat_lt
  have hshares' := totalShares'.toNat_lt
  have hbought := (previewDeposit_eq_ok.mp hdeposit).2
  have hproduct := redeemed_product_lt (by rw [← hassets]; exact hassets')
    (by rw [← hshares]; exact hshares') hbought
  let totals : Totals := ⟨totalAssets.toNat + 10 ^ 6, totalShares.toNat + 10 ^ 9⟩
  have hle := worth_bought_le totals amount.toNat
  have hlt := sub_worth_bought_lt totals amount.toNat (Nat.add_pos_right _ (by norm_num))
    (Nat.add_pos_right _ (by norm_num))
  have hworth : Totals.worth ⟨totals.assets + amount.toNat,
      totals.shares + totals.bought amount.toNat⟩ (totals.bought amount.toNat) =
      shares.toNat * (totalAssets'.toNat + 10 ^ 6) / (totalShares'.toNat + 10 ^ 9) := by
    have hminted : totals.bought amount.toNat = shares.toNat := hbought.symm
    rw [hminted, hassets, hshares, Nat.add_right_comm, Nat.add_right_comm totalShares.toNat]
    rfl
  rw [hworth] at hle hlt
  obtain ⟨redeemed, hredeemed⟩ := UInt64.exists_toNat_eq (Nat.lt_of_le_of_lt hle amount.toNat_lt)
  rw [← hredeemed] at hle hlt
  refine ⟨redeemed, previewRedeem_eq_ok.mpr ⟨?_, hredeemed⟩, UInt64.le_iff_toNat_le.mpr hle, ?_⟩
  · rw [hassets]
    exact hproduct
  · exact_mod_cast hlt

/-- At the initial price of a thousand shares per atom, one atom is redeemed for the last one. -/
theorem deposit_redeem_round_trip_initial : ∃ redeemed,
    previewRedeem 1000000000 1000000 1000000000 = .ok redeemed ∧ redeemed ≤ 1000000 ∧
      ((1000000 : UInt64).toNat : ℚ) - redeemed.toNat <
        1 + ((0 : UInt64).toNat + 10 ^ 6) / ((0 : UInt64).toNat + 10 ^ 9) :=
  deposit_redeem_round_trip (show previewDeposit 1000000 0 0 = .ok 1000000000 from
    previewDeposit_eq_ok.mpr (by decide)) rfl rfl

/-! ## Inflating an empty pool -/

/-- Whoever enters an empty pool, raises its assets at its own expense and waits for another deposit
redeems at most what the entry and the gift cost. -/
theorem inflation_never_pays {paid bought raised shares bought' totalAssets totalShares redeemed :
    UInt64} {gift : ℕ} (hattack : previewDeposit paid 0 0 = .ok shares)
    (hraised : raised.toNat = paid.toNat + gift)
    (hvictim : previewDeposit bought raised shares = .ok bought')
    (hassets : totalAssets.toNat = raised.toNat + bought.toNat)
    (hshares : totalShares.toNat = shares.toNat + bought'.toNat)
    (hredeem : previewRedeem shares totalAssets totalShares = .ok redeemed) :
    redeemed.toNat ≤ paid.toNat + gift := by
  have hinitial := (previewDeposit_eq_ok.mp hattack).2
  have hbought := (previewDeposit_eq_ok.mp hvictim).2
  have hredeemed := (previewRedeem_eq_ok.mp hredeem).2
  have hfirst : shares.toNat = 1000 * paid.toNat := by
    rw [UInt64.toNat_zero] at hinitial
    omega
  have hvirtual : 1000 * paid.toNat + 10 ^ 9 = 1000 * (paid.toNat + 10 ^ 6) := by ring
  have hgift := worth_after_gift_le (show 0 < 10 ^ 6 by norm_num) (show 0 < 1000 by norm_num)
    paid.toNat gift bought.toNat
  dsimp only [Totals.worth, Totals.bought] at hgift
  rw [hraised, hfirst, hvirtual] at hbought
  calc
    redeemed.toNat = 1000 * paid.toNat * (paid.toNat + gift + 10 ^ 6 + bought.toNat) /
        (1000 * (paid.toNat + 10 ^ 6) + bought'.toNat) := by
      rw [hredeemed, hassets, hshares, hraised, hfirst, ← hvirtual, Nat.add_right_comm _ _ (10 ^ 6),
        Nat.add_right_comm _ _ (10 ^ 9)]
    _ ≤ paid.toNat + gift := by
      rw [hbought]
      exact hgift

/-- One atom is deposited and a million given before two million are deposited. -/
theorem inflation_never_pays_oneAtom : ∃ redeemed,
    previewRedeem 1000 3000001 1000001499 = .ok redeemed ∧ redeemed.toNat ≤ 1 + 1000000 :=
  ⟨1, previewRedeem_eq_ok.mpr (by decide),
    inflation_never_pays (show previewDeposit 1 0 0 = .ok 1000 from
        previewDeposit_eq_ok.mpr (by decide))
      (show (1000001 : UInt64).toNat = (1 : UInt64).toNat + 1000000 from rfl)
      (show previewDeposit 2000000 1000001 1000 = .ok 1000000499 from
        previewDeposit_eq_ok.mpr (by decide))
      (show (3000001 : UInt64).toNat = (1000001 : UInt64).toNat + (2000000 : UInt64).toNat from rfl)
      (show (1000001499 : UInt64).toNat = (1000 : UInt64).toNat + (1000000499 : UInt64).toNat from
        rfl)
      (show previewRedeem 1000 3000001 1000001499 = .ok 1 from
        previewRedeem_eq_ok.mpr (by decide))⟩

/-! ## Entering and leaving in parts -/

/-- Deposits made one after another into a pool, with the shares they mint. What happens to the
tokens in between is left open. -/
inductive Deposits : PoolState → List UInt64 → ℕ → PoolState → Prop
  | nil (s : PoolState) : Deposits s [] 0 s
  | cons {s s' : PoolState} {accounts : Deposit} {amount shares : UInt64} {t : TokenLedger}
      {effect : Effect} {amounts : List UInt64} {minted : ℕ}
      (hdeposit : deposit accounts amount s t = .ok effect)
      (hevent : effect.event = .deposited accounts.pool accounts.lp amount shares)
      (hrest : Deposits effect.state amounts minted s') :
      Deposits s (amount :: amounts) (shares.toNat + minted) s'

/-- Withdrawals made one after another, with the assets they return. -/
inductive Withdrawals : PoolState → List UInt64 → ℕ → PoolState → Prop
  | nil (s : PoolState) : Withdrawals s [] 0 s
  | cons {s s' : PoolState} {accounts : Withdraw} {shares assets : UInt64} {t : TokenLedger}
      {effect : Effect} {burned : List UInt64} {returned : ℕ}
      (hwithdraw : withdraw accounts shares s t = .ok effect)
      (hevent : effect.event = .withdrew accounts.pool accounts.lp shares assets)
      (hrest : Withdrawals effect.state burned returned s') :
      Withdrawals s (shares :: burned) (assets.toNat + returned) s'

theorem deposit_books {accounts : Deposit} {amount shares : UInt64} {s : PoolState}
    {t : TokenLedger} {effect : Effect} (h : deposit accounts amount s t = .ok effect)
    (hevent : effect.event = .deposited accounts.pool accounts.lp amount shares) :
    PriceLe s.pool.totals effect.state.pool.totals ∧
      effect.state.pool.totalAssets.toNat = s.pool.totalAssets.toNat + amount.toNat ∧
      effect.state.pool.totalShares.toNat = s.pool.totalShares.toNat + shares.toNat := by
  obtain ⟨_, _, minted, _, -, hbuys, -, -⟩ := deposit_eq_ok.mp h
  obtain rfl : minted = shares := by simpa [hbuys.emitted] using hevent
  exact ⟨hbuys.priceLe, hbuys.totalAssets, hbuys.totalShares⟩

theorem withdraw_books {accounts : Withdraw} {shares assets : UInt64} {s : PoolState}
    {t : TokenLedger} {effect : Effect} (h : withdraw accounts shares s t = .ok effect)
    (hevent : effect.event = .withdrew accounts.pool accounts.lp shares assets) :
    PriceLe s.pool.totals effect.state.pool.totals ∧
      effect.state.pool.totalAssets.toNat + assets.toNat = s.pool.totalAssets.toNat ∧
      effect.state.pool.totalShares.toNat + shares.toNat = s.pool.totalShares.toNat := by
  obtain ⟨_, _, returned, _, -, hredeems, -, -, -⟩ := withdraw_eq_ok.mp h
  obtain rfl : returned = assets := by simpa [hredeems.emitted] using hevent
  exact ⟨hredeems.priceLe, hredeems.totalAssets, hredeems.totalShares⟩

/-- In however many parts assets come, the price does not fall. -/
theorem Deposits.books {s s' : PoolState} {amounts : List UInt64} {minted : ℕ}
    (h : Deposits s amounts minted s') :
    PriceLe s.pool.totals s'.pool.totals ∧
      s'.pool.totalAssets.toNat = s.pool.totalAssets.toNat + (amounts.map UInt64.toNat).sum ∧
      s'.pool.totalShares.toNat = s.pool.totalShares.toNat + minted := by
  induction h with
  | nil s => exact ⟨PriceLe.refl _, rfl, rfl⟩
  | @cons _ _ _ _ _ _ effect _ _ hdeposit hevent _ ih =>
      obtain ⟨hprice, hassets, hshares⟩ := deposit_books hdeposit hevent
      obtain ⟨hprice', hassets', hshares'⟩ := ih
      refine ⟨hprice.trans hprice' effect.state.pool.totals_shares_pos, ?_, by omega⟩
      rw [List.map_cons, List.sum_cons]
      omega

theorem Withdrawals.books {s s' : PoolState} {burned : List UInt64} {returned : ℕ}
    (h : Withdrawals s burned returned s') :
    PriceLe s.pool.totals s'.pool.totals ∧
      s'.pool.totalAssets.toNat + returned = s.pool.totalAssets.toNat ∧
      s'.pool.totalShares.toNat + (burned.map UInt64.toNat).sum = s.pool.totalShares.toNat := by
  induction h with
  | nil s => exact ⟨PriceLe.refl _, rfl, rfl⟩
  | @cons _ _ _ _ _ _ effect _ _ hwithdraw hevent _ ih =>
      obtain ⟨hprice, hassets, hshares⟩ := withdraw_books hwithdraw hevent
      obtain ⟨hprice', hassets', hshares'⟩ := ih
      refine ⟨hprice.trans hprice' effect.state.pool.totals_shares_pos, by omega, ?_⟩
      rw [List.map_cons, List.sum_cons]
      omega

theorem Deposits.minted_le {s s' : PoolState} {amounts : List UInt64} {minted : ℕ}
    {total shares : UInt64} (h : Deposits s amounts minted s')
    (htotal : total.toNat = (amounts.map UInt64.toNat).sum)
    (hpreview : previewDeposit total s.pool.totalAssets s.pool.totalShares = .ok shares) :
    minted ≤ shares.toNat := by
  obtain ⟨hprice, hassets, hshares⟩ := h.books
  have hbought : shares.toNat = s.pool.totals.bought total.toNat :=
    (previewDeposit_eq_ok.mp hpreview).2
  rw [hbought]
  apply hprice.minted_le
  · simp only [Pool.totals]
    omega
  · simp only [Pool.totals]
    omega
  · exact Nat.add_pos_right _ (by decide)

theorem Withdrawals.returned_le {s s' : PoolState} {burned : List UInt64} {returned : ℕ}
    {total assets : UInt64} (h : Withdrawals s burned returned s')
    (htotal : total.toNat = (burned.map UInt64.toNat).sum)
    (hpreview : previewRedeem total s.pool.totalAssets s.pool.totalShares = .ok assets) :
    returned ≤ assets.toNat := by
  obtain ⟨hprice, hassets, hshares⟩ := h.books
  have hworth : assets.toNat = s.pool.totals.worth total.toNat :=
    (previewRedeem_eq_ok.mp hpreview).2
  rw [hworth]
  apply hprice.paid_le
  · simp only [Pool.totals]
    omega
  · simp only [Pool.totals]
    omega
  · exact s.pool.totals_shares_pos

/-- The shares that a deposit counts are those that the provider's accounts gain. -/
theorem deposit_gains {accounts : Deposit} {amount shares : UInt64} {s : PoolState}
    {t : TokenLedger} {effect : Effect} (h : deposit accounts amount s t = .ok effect)
    (hevent : effect.event = .deposited accounts.pool accounts.lp amount shares)
    (hmints : s.pool.assetMint ≠ s.pool.shareMint) :
    effect.tokens.heldBy s.pool.shareMint (· = accounts.lp) =
      t.heldBy s.pool.shareMint (· = accounts.lp) + shares.toNat := by
  obtain ⟨minted, hemitted, -, -, hheld, -⟩ :=
    deposit_heldBy (· = accounts.lp) h rfl hmints
  obtain rfl : minted = shares := by simpa [hemitted] using hevent
  exact hheld

theorem withdraw_gains {accounts : Withdraw} {shares assets : UInt64} {s : PoolState}
    {t : TokenLedger} {effect : Effect} (h : withdraw accounts shares s t = .ok effect)
    (hevent : effect.event = .withdrew accounts.pool accounts.lp shares assets)
    (hmints : s.pool.assetMint ≠ s.pool.shareMint)
    (hapart : s.pool.VaultApart (· = accounts.lp) t) :
    effect.tokens.heldBy s.pool.assetMint (· = accounts.lp) =
      t.heldBy s.pool.assetMint (· = accounts.lp) + assets.toNat := by
  obtain ⟨returned, hemitted, -, -, -, hheld⟩ :=
    withdraw_heldBy (· = accounts.lp) h rfl hmints
  obtain rfl : returned = assets := by simpa [hemitted] using hevent
  exact hheld hapart

/-- From every state of a pool, deposits made one after another mint at most the shares that their
sum would buy at once, and withdrawals made one after another return at most what the sum of the
shares is worth at once. What is counted for each of them is what the provider's token accounts
gain. -/
theorem splitting_never_helps (s : PoolState) :
    (∀ amounts minted s' total shares, Deposits s amounts minted s' →
      total.toNat = (amounts.map UInt64.toNat).sum →
      previewDeposit total s.pool.totalAssets s.pool.totalShares = .ok shares →
      minted ≤ shares.toNat) ∧
    (∀ burned returned s' total assets, Withdrawals s burned returned s' →
      total.toNat = (burned.map UInt64.toNat).sum →
      previewRedeem total s.pool.totalAssets s.pool.totalShares = .ok assets →
      returned ≤ assets.toNat) ∧
    (∀ accounts amount shares t effect, deposit accounts amount s t = .ok effect →
      effect.event = .deposited accounts.pool accounts.lp amount shares →
      s.pool.assetMint ≠ s.pool.shareMint →
      effect.tokens.heldBy s.pool.shareMint (· = accounts.lp) =
        t.heldBy s.pool.shareMint (· = accounts.lp) + shares.toNat) ∧
    ∀ accounts shares assets t effect, withdraw accounts shares s t = .ok effect →
      effect.event = .withdrew accounts.pool accounts.lp shares assets →
      s.pool.assetMint ≠ s.pool.shareMint → s.pool.VaultApart (· = accounts.lp) t →
      effect.tokens.heldBy s.pool.assetMint (· = accounts.lp) =
        t.heldBy s.pool.assetMint (· = accounts.lp) + assets.toNat := by
  refine ⟨?_, ?_, ?_, ?_⟩
  · intro amounts minted s' total shares hdeposits htotal hpreview
    exact hdeposits.minted_le htotal hpreview
  · intro burned returned s' total assets hwithdrawals htotal hpreview
    exact hwithdrawals.returned_le htotal hpreview
  · intro accounts amount shares t effect h hevent hmints
    exact deposit_gains h hevent hmints
  · intro accounts shares assets t effect h hevent hmints hapart
    exact withdraw_gains h hevent hmints hapart

/-- The shares of the opening deposit leave in two halves. -/
theorem splitting_never_helps_localnet : ∃ s ps s' returned,
    Chain.run Localnet.runtime Localnet.opening = .ok s ∧
    s.pools.lookup Localnet.pool = some ps ∧
    Withdrawals ps [500000000000, 500000000000] returned s' ∧ returned ≤ 1000000000 := by
  obtain ⟨s, ps, hrun, hp, htest⟩ := Localnet.reaches_iff.mp
    (show Localnet.reaches Localnet.opening (fun s ps ↦
      previewRedeem 1000000000000 ps.pool.totalAssets ps.pool.totalShares = .ok 1000000000 ∧
      Localnet.returns (withdraw Localnet.liquidityAccounts 500000000000 ps s.tokens) fun first ↦
        first.event = .withdrew Localnet.pool Localnet.lp 500000000000 500000000 ∧
        Localnet.returns (withdraw Localnet.liquidityAccounts 500000000000 first.state
          first.tokens) fun second ↦
            second.event = .withdrew Localnet.pool Localnet.lp 500000000000 500000000) = true by
      decide +kernel)
  obtain ⟨hpreview, hfirst⟩ := of_decide_eq_true htest
  obtain ⟨first, hfirst, htest⟩ := Localnet.returns_iff.mp hfirst
  obtain ⟨hevent, hsecond⟩ := of_decide_eq_true htest
  obtain ⟨second, hsecond, htest⟩ := Localnet.returns_iff.mp hsecond
  have hwithdrawals := Withdrawals.cons hfirst hevent
    (.cons hsecond (of_decide_eq_true htest) (.nil second.state))
  obtain ⟨-, hreturned, -⟩ := splitting_never_helps ps
  have hle := hreturned _ _ _ _ _ hwithdrawals (by decide) hpreview
  exact ⟨s, ps, second.state, _, hrun, hp, hwithdrawals, hle⟩

end CredMesh
