import Mathlib.Algebra.Order.BigOperators.Group.Multiset
import Mathlib.Algebra.Order.Ring.Nat
import Mathlib.Data.Rat.Cast.Order
import Mathlib.Tactic.Linarith
import Mathlib.Tactic.Ring

/-!
# Share prices with virtual amounts

A fund that issues shares against assets, both counted together with a fixed virtual amount so
that the price of a share is always defined. Prices are compared cross-multiplied. Minting and
redeeming round down, each in favour of those who hold shares, so neither lowers the price.
-/

namespace VirtualShares

/-- The assets and shares of a fund, the virtual amounts included. -/
structure Totals where
  assets : ℕ
  shares : ℕ

/-- The price of a share does not fall. -/
def PriceLe (before after : Totals) : Prop :=
  before.assets * after.shares ≤ after.assets * before.shares

/-- What a number of shares is worth, rounded down. -/
def Totals.worth (totals : Totals) (shares : ℕ) : ℕ :=
  shares * totals.assets / totals.shares

variable {a b c : Totals}

theorem PriceLe.refl (a : Totals) : PriceLe a a := le_refl _

theorem PriceLe.trans (hab : PriceLe a b) (hbc : PriceLe b c) (hpositive : 0 < b.shares) :
    PriceLe a c := by
  unfold PriceLe at *
  apply Nat.le_of_mul_le_mul_right _ hpositive
  calc
    a.assets * c.shares * b.shares = a.assets * b.shares * c.shares := by ring
    _ ≤ b.assets * a.shares * c.shares := Nat.mul_le_mul_right _ hab
    _ = b.assets * c.shares * a.shares := by ring
    _ ≤ c.assets * b.shares * a.shares := Nat.mul_le_mul_right _ hbc
    _ = c.assets * a.shares * b.shares := by ring

/-- Minting at most what the assets buy does not lower the price. -/
theorem priceLe_deposit (amount minted : ℕ) (assets : b.assets = a.assets + amount)
    (shares : b.shares = a.shares + minted) (hminted : minted = amount * a.shares / a.assets) :
    PriceLe a b := by
  have hfloor : minted * a.assets ≤ amount * a.shares := by
    rw [hminted]
    exact Nat.div_mul_le_self _ _
  unfold PriceLe
  rw [assets, shares]
  calc
    a.assets * (a.shares + minted) = a.assets * a.shares + minted * a.assets := by ring
    _ ≤ a.assets * a.shares + amount * a.shares := Nat.add_le_add_left hfloor _
    _ = (a.assets + amount) * a.shares := by ring

/-- Redeeming shares for what they are worth does not lower the price. -/
theorem priceLe_redeem (shares paid : ℕ) (assets : b.assets + paid = a.assets)
    (burned : b.shares + shares = a.shares) (hpaid : paid = a.worth shares) : PriceLe a b := by
  have hfloor : paid * a.shares ≤ shares * a.assets := by
    rw [hpaid]
    exact Nat.div_mul_le_self _ _
  unfold PriceLe
  apply Nat.le_of_add_le_add_right
  calc
    a.assets * b.shares + shares * a.assets = a.assets * a.shares := by rw [← burned]; ring
    _ = b.assets * a.shares + paid * a.shares := by rw [← assets]; ring
    _ ≤ b.assets * a.shares + shares * a.assets := Nat.add_le_add_left hfloor _

theorem priceLe_gain (hassets : a.assets ≤ b.assets) (hshares : b.shares = a.shares) :
    PriceLe a b := by
  unfold PriceLe
  rw [hshares]
  exact Nat.mul_le_mul_right _ hassets

/-- As long as the price has not fallen and there are at least as many shares, there are at least
as many assets. -/
theorem PriceLe.assets_le (h : PriceLe a b) (hshares : a.shares ≤ b.shares)
    (hpositive : 0 < a.shares) : a.assets ≤ b.assets := by
  apply Nat.le_of_mul_le_mul_right _ hpositive
  calc
    a.assets * a.shares ≤ a.assets * b.shares := Nat.mul_le_mul_left _ hshares
    _ ≤ b.assets * a.shares := h

/-- Shares are worth no less at a price that has not fallen. -/
theorem PriceLe.worth_le (h : PriceLe a b) (ha : 0 < a.shares) (hb : 0 < b.shares)
    (shares : ℕ) : a.worth shares ≤ b.worth shares := by
  have hfloor : a.worth shares * a.shares ≤ shares * a.assets := Nat.div_mul_le_self _ _
  apply (Nat.le_div_iff_mul_le hb).mpr
  apply Nat.le_of_mul_le_mul_right _ ha
  calc
    a.worth shares * b.shares * a.shares = a.worth shares * a.shares * b.shares := by ring
    _ ≤ shares * a.assets * b.shares := Nat.mul_le_mul_right _ hfloor
    _ = shares * (a.assets * b.shares) := by ring
    _ ≤ shares * (b.assets * a.shares) := Nat.mul_le_mul_left _ h
    _ = shares * b.assets * a.shares := by ring

/-- No part of the shares is worth more than all the assets. -/
theorem worth_le_assets {totals : Totals} {held : ℕ} (h : held ≤ totals.shares) :
    totals.worth held ≤ totals.assets :=
  Nat.div_le_of_le_mul (Nat.mul_le_mul_right _ h)

/-- As long as the price is at least that of the virtual amounts alone, the real shares are worth at
most the real assets. -/
theorem worth_le_of_priceLe {virtualAssets virtualShares assets shares held : ℕ}
    (h : PriceLe ⟨virtualAssets, virtualShares⟩ ⟨assets + virtualAssets, shares + virtualShares⟩)
    (hheld : held ≤ shares) :
    Totals.worth ⟨assets + virtualAssets, shares + virtualShares⟩ held ≤ assets := by
  unfold PriceLe at h
  dsimp only at h
  apply Nat.div_le_of_le_mul
  calc
    held * (assets + virtualAssets) ≤ shares * (assets + virtualAssets) :=
      Nat.mul_le_mul_right _ hheld
    _ ≤ (shares + virtualShares) * assets := by linarith

/-- Several holdings are worth at most what they are worth together. -/
theorem sum_worth_le {α : Type} (totals : Totals) (holding : α → ℕ) (holders : Multiset α) :
    (holders.map fun holder ↦ totals.worth (holding holder)).sum ≤
      totals.worth (holders.map holding).sum := by
  induction holders using Multiset.induction_on with
  | empty => exact Nat.zero_le _
  | cons holder holders ih =>
      simp only [Multiset.map_cons, Multiset.sum_cons]
      calc
        totals.worth (holding holder) + (holders.map fun other ↦ totals.worth (holding other)).sum
          ≤ totals.worth (holding holder) + totals.worth (holders.map holding).sum :=
            Nat.add_le_add_left ih _
        _ ≤ totals.worth (holding holder + (holders.map holding).sum) := by
            unfold Totals.worth
            rw [Nat.add_mul]
            exact Nat.div_add_div_le_add_div

/-- The shares that an amount of assets buys, rounded down. -/
def Totals.bought (totals : Totals) (amount : ℕ) : ℕ :=
  amount * totals.shares / totals.assets

/-- As long as the price does not fall, what was minted is at most what the added assets buy at the
start, in however many parts they came. -/
theorem PriceLe.minted_le {amount minted : ℕ} (h : PriceLe a b)
    (assets : b.assets = a.assets + amount) (shares : b.shares = a.shares + minted)
    (hpositive : 0 < a.assets) : minted ≤ a.bought amount := by
  unfold PriceLe at h
  rw [assets, shares] at h
  apply (Nat.le_div_iff_mul_le hpositive).mpr
  apply Nat.le_of_add_le_add_left (a := a.assets * a.shares)
  calc
    a.assets * a.shares + minted * a.assets = a.assets * (a.shares + minted) := by ring
    _ ≤ (a.assets + amount) * a.shares := h
    _ = a.assets * a.shares + amount * a.shares := by ring

/-- Likewise, what was paid out is at most what the burned shares are worth at the start. -/
theorem PriceLe.paid_le {burned paid : ℕ} (h : PriceLe a b) (assets : b.assets + paid = a.assets)
    (shares : b.shares + burned = a.shares) (hpositive : 0 < a.shares) :
    paid ≤ a.worth burned := by
  unfold PriceLe at h
  apply (Nat.le_div_iff_mul_le hpositive).mpr
  apply Nat.le_of_add_le_add_left (a := b.assets * a.shares)
  calc
    b.assets * a.shares + paid * a.shares = a.assets * a.shares := by rw [← assets]; ring
    _ = a.assets * b.shares + burned * a.assets := by rw [← shares]; ring
    _ ≤ b.assets * a.shares + burned * a.assets := Nat.add_le_add_right h _

/-- Shares that are redeemed right after they were bought return at most what they cost. -/
theorem worth_bought_le (a : Totals) (amount : ℕ) :
    Totals.worth ⟨a.assets + amount, a.shares + a.bought amount⟩ (a.bought amount) ≤ amount := by
  have hfloor : a.bought amount * a.assets ≤ amount * a.shares := Nat.div_mul_le_self _ _
  apply Nat.div_le_of_le_mul
  calc
    a.bought amount * (a.assets + amount) = a.bought amount * a.assets + a.bought amount * amount :=
      Nat.mul_add _ _ _
    _ ≤ amount * a.shares + a.bought amount * amount := Nat.add_le_add_right hfloor _
    _ = (a.shares + a.bought amount) * amount := by ring

/-- They fall short by less than one unit and the price of a share. -/
theorem lt_worth_bought (a : Totals) (amount : ℕ) (hassets : 0 < a.assets)
    (hshares : 0 < a.shares) :
    amount * (a.shares + a.bought amount) <
      (Totals.worth ⟨a.assets + amount, a.shares + a.bought amount⟩ (a.bought amount) + 1) *
        (a.shares + a.bought amount) + a.assets := by
  have hbought : amount * a.shares < a.bought amount * a.assets + a.assets :=
    Nat.lt_div_mul_add hassets
  have hworth : a.bought amount * (a.assets + amount) <
      Totals.worth ⟨a.assets + amount, a.shares + a.bought amount⟩ (a.bought amount) *
        (a.shares + a.bought amount) + (a.shares + a.bought amount) :=
    Nat.lt_div_mul_add (Nat.add_pos_left hshares _)
  generalize Totals.worth ⟨a.assets + amount, a.shares + a.bought amount⟩ (a.bought amount) =
    worth at hworth ⊢
  calc
    amount * (a.shares + a.bought amount) = amount * a.shares + a.bought amount * amount := by ring
    _ < a.bought amount * a.assets + a.assets + a.bought amount * amount :=
      Nat.add_lt_add_right hbought _
    _ = a.bought amount * (a.assets + amount) + a.assets := by ring
    _ ≤ worth * (a.shares + a.bought amount) + (a.shares + a.bought amount) + a.assets :=
      Nat.add_le_add_right hworth.le _
    _ = (worth + 1) * (a.shares + a.bought amount) + a.assets := by ring

/-- So they lose less than one unit and the price of a share before the purchase. -/
theorem sub_worth_bought_lt (a : Totals) (amount : ℕ) (hassets : 0 < a.assets)
    (hshares : 0 < a.shares) :
    (amount : ℚ) -
        Totals.worth ⟨a.assets + amount, a.shares + a.bought amount⟩ (a.bought amount) <
      1 + a.assets / a.shares := by
  have hlt := lt_worth_bought a amount hassets hshares
  generalize Totals.worth ⟨a.assets + amount, a.shares + a.bought amount⟩ (a.bought amount) =
    worth at hlt ⊢
  have hpositive : (0 : ℚ) < a.shares := by exact_mod_cast hshares
  have hloss : (amount : ℚ) * (a.shares + a.bought amount) <
      (worth + 1) * (a.shares + a.bought amount) + a.assets := by exact_mod_cast hlt
  have hrest : (amount : ℚ) - worth - 1 < a.assets / (a.shares + a.bought amount) := by
    rw [lt_div_iff₀ (by positivity)]
    linarith
  calc
    (amount : ℚ) - worth = 1 + (amount - worth - 1) := by ring
    _ < 1 + a.assets / (a.shares + a.bought amount) := by
      apply add_lt_add_right
      exact hrest
    _ ≤ 1 + a.assets / a.shares := by
      apply add_le_add_right
      exact div_le_div_of_nonneg_left (by positivity) hpositive (by simp)

/-- Where the virtual shares are a multiple of the virtual assets, the first holder of an empty fund
does not gain by giving assets to it before somebody else buys shares: not even what the rounding of
that purchase leaves to the holders makes up for the gift. -/
theorem worth_after_gift_le {virtualAssets ratio : ℕ} (hassets : 0 < virtualAssets)
    (hratio : 0 < ratio) (paid gift bought : ℕ) :
    let raised : Totals := ⟨paid + gift + virtualAssets, ratio * (paid + virtualAssets)⟩
    Totals.worth ⟨raised.assets + bought, raised.shares + raised.bought bought⟩ (ratio * paid) ≤
      paid + gift := by
  intro raised
  have hassetsRaised : raised.assets = paid + gift + virtualAssets := rfl
  have hsharesRaised : raised.shares = ratio * (paid + virtualAssets) := rfl
  have hbought : bought * raised.shares < raised.bought bought * raised.assets + raised.assets :=
    Nat.lt_div_mul_add (Nat.add_pos_right _ hassets)
  -- the gift lost to the virtual shares outweighs the one share that the purchase may lose
  have hlost : paid + gift + 1 ≤ ratio * (gift * virtualAssets + paid + virtualAssets) := by
    have hgift : gift ≤ gift * virtualAssets := Nat.le_mul_of_pos_right _ hassets
    exact (show paid + gift + 1 ≤ gift * virtualAssets + paid + virtualAssets by omega).trans
      (Nat.le_mul_of_pos_left _ hratio)
  generalize raised.bought bought = minted at hbought ⊢
  apply Nat.le_of_lt_succ
  apply (Nat.div_lt_iff_lt_mul (Nat.add_pos_left (Nat.mul_pos hratio (by omega)) _)).mpr
  apply Nat.lt_of_mul_lt_mul_right (a := raised.assets)
  apply Nat.lt_of_add_lt_add_right (n := (paid + gift + 1) * raised.assets)
  calc
    ratio * paid * (raised.assets + bought) * raised.assets + (paid + gift + 1) * raised.assets
      ≤ ratio * paid * (raised.assets + bought) * raised.assets +
          ratio * (gift * virtualAssets + paid + virtualAssets) * (raised.assets + bought) :=
        Nat.add_le_add_left (Nat.mul_le_mul hlost (Nat.le_add_right _ _)) _
    _ = (paid + gift + 1) * raised.shares * raised.assets +
          (paid + gift + 1) * (bought * raised.shares) := by
        rw [hassetsRaised, hsharesRaised]
        ring
    _ < (paid + gift + 1) * raised.shares * raised.assets +
          (paid + gift + 1) * (minted * raised.assets + raised.assets) :=
        Nat.add_lt_add_left (Nat.mul_lt_mul_of_pos_left hbought (Nat.succ_pos _)) _
    _ = (paid + gift + 1) * (raised.shares + minted) * raised.assets +
          (paid + gift + 1) * raised.assets := by ring

end VirtualShares
