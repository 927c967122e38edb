import CredMesh.Escrow.State

/-!
# Pricing

Share prices with virtual offsets, the fee curve and the late penalty. Intermediate products are
128-bit and checked; the few unchecked 64-bit operators trap on overflow.
-/

namespace CredMesh.Escrow

open Outcome

def previewDeposit (amount totalAssets totalShares : UInt64) : Except Error UInt64 := do
  let sharesOff ← okOr (U128.checkedAdd totalShares.toNat virtualSharesOffset.toNat)
    (.credmesh .mathOverflow)
  let assetsOff ← okOr (U128.checkedAdd totalAssets.toNat virtualAssetsOffset.toNat)
    (.credmesh .mathOverflow)
  let numerator ← okOr (U128.checkedMul amount.toNat sharesOff) (.credmesh .mathOverflow)
  let shares ← okOr (U128.checkedDiv numerator assetsOff) (.credmesh .mathOverflow)
  okOr (UInt64.tryFrom shares) (.credmesh .mathOverflow)

def previewRedeem (shares totalAssets totalShares : UInt64) : Except Error UInt64 := do
  let assetsOff ← okOr (U128.checkedAdd totalAssets.toNat virtualAssetsOffset.toNat)
    (.credmesh .mathOverflow)
  let sharesOff ← okOr (U128.checkedAdd totalShares.toNat virtualSharesOffset.toNat)
    (.credmesh .mathOverflow)
  let numerator ← okOr (U128.checkedMul shares.toNat assetsOff) (.credmesh .mathOverflow)
  let assets ← okOr (U128.checkedDiv numerator sharesOff) (.credmesh .mathOverflow)
  okOr (UInt64.tryFrom assets) (.credmesh .mathOverflow)

/-- The rate before the duration and risk premiums, linear on both sides of the kink. -/
def utilizationRateBps (utilizationBps : UInt64) (curve : FeeCurve) : Except Error UInt64 := do
  let kink := curve.utilizationKinkBps.toUInt64
  if kink < utilizationBps ∧ 0 < bpsDenominator.saturatingSub kink then do
    let extra ← okOr (utilizationBps.checkedSub kink) .panic
    let span ← okOr (bpsDenominator.checkedSub kink) .panic
    let kinkToMax := curve.maxRateBps.toUInt64.saturatingSub curve.kinkRateBps.toUInt64
    let scaled ← okOr (extra.checkedMul kinkToMax) (.credmesh .mathOverflow)
    okOr (curve.kinkRateBps.toUInt64.checkedAdd (scaled / span)) .panic
  else do
    let kinkMinusBase := curve.kinkRateBps.toUInt64.saturatingSub curve.baseRateBps.toUInt64
    let scaled ← okOr (utilizationBps.checkedMul kinkMinusBase) (.credmesh .mathOverflow)
    okOr (curve.baseRateBps.toUInt64.checkedAdd (if 0 < kink then scaled / kink else 0)) .panic

def computeFeeAmount (principal durationSeconds utilizationBps : UInt64) (defaultCount : UInt32)
    (curve : FeeCurve) : Except Error UInt64 := do
  let rateBps ← utilizationRateBps utilizationBps curve
  let durationDays := durationSeconds / 86400
  let rateBps ← okOr
    (rateBps.checkedAdd (durationDays.saturatingMul curve.durationPerDayBps.toUInt64))
    (.credmesh .mathOverflow)
  let riskFactor := min defaultCount.toUInt64 5
  let rateBps ← okOr (rateBps.checkedAdd (riskFactor.saturatingMul curve.riskPremiumBps.toUInt64))
    (.credmesh .mathOverflow)
  let rateBps := min rateBps curve.maxRateBps.toUInt64
  let scaled ← okOr (U128.checkedMul principal.toNat rateBps.toNat) (.credmesh .mathOverflow)
  let fee ← okOr (U128.checkedDiv scaled bpsDenominator.toNat) (.credmesh .mathOverflow)
  okOr (UInt64.tryFrom fee) (.credmesh .mathOverflow)

/-- A tenth of a percent of the principal, raised by the loss surcharge if one is set. -/
def computeLatePenaltyPerDay (principal : UInt64) (curve : FeeCurve) : Except Error UInt64 := do
  let scaled ← okOr (U128.checkedMul principal.toNat 10) (.credmesh .mathOverflow)
  let base ← okOr (U128.checkedDiv scaled bpsDenominator.toNat) (.credmesh .mathOverflow)
  let surcharge := curve.poolLossSurchargeBps.toNat
  let total ←
    if 0 < surcharge then do
      let raised ← okOr (U128.checkedMul base (bpsDenominator.toNat + surcharge))
        (.credmesh .mathOverflow)
      okOr (U128.checkedDiv raised bpsDenominator.toNat) (.credmesh .mathOverflow)
    else pure base
  okOr (UInt64.tryFrom total) (.credmesh .mathOverflow)

def computeUtilizationBps (pool : Pool) : Except Error UInt64 :=
  if pool.totalAssets = 0 then pure bpsDenominator
  else do
    let scaled ← okOr (U128.checkedMul pool.deployedAmount.toNat bpsDenominator.toNat)
      (.credmesh .mathOverflow)
    let utilization ← okOr (U128.checkedDiv scaled pool.totalAssets.toNat)
      (.credmesh .mathOverflow)
    pure ((UInt64.tryFrom utilization).getD bpsDenominator)

/-! ## Exact values -/

@[simp]
theorem virtualAssetsOffset_toNat : virtualAssetsOffset.toNat = 10 ^ 6 := rfl

@[simp]
theorem virtualSharesOffset_toNat : virtualSharesOffset.toNat = 10 ^ 9 := rfl

@[simp]
theorem bpsDenominator_toNat : bpsDenominator.toNat = 10000 := rfl

/-- A deposit buys its part of the shares, rounded down. -/
theorem previewDeposit_eq_ok {amount totalAssets totalShares shares : UInt64} :
    previewDeposit amount totalAssets totalShares = .ok shares ↔
      amount.toNat * (totalShares.toNat + 10 ^ 9) < 2 ^ 128 ∧
      shares.toNat =
        amount.toNat * (totalShares.toNat + 10 ^ 9) / (totalAssets.toNat + 10 ^ 6) := by
  have hA := totalAssets.toNat_lt
  have hS := totalShares.toNat_lt
  simp only [previewDeposit, virtualAssetsOffset_toNat, virtualSharesOffset_toNat, bind_eq_ok,
    okOr_eq_ok, U128.checkedAdd_eq_some, U128.checkedMul_eq_some, U128.checkedDiv_eq_some,
    UInt64.tryFrom_eq_some]
  constructor
  · rintro ⟨_, ⟨-, rfl⟩, _, ⟨-, rfl⟩, _, ⟨hproduct, rfl⟩, _, ⟨-, rfl⟩, h⟩
    exact ⟨hproduct, h⟩
  · rintro ⟨hproduct, h⟩
    exact ⟨_, ⟨by omega, rfl⟩, _, ⟨by omega, rfl⟩, _, ⟨hproduct, rfl⟩, _, ⟨by omega, rfl⟩, h⟩

/-- A redemption is worth its share of the assets, rounded down. -/
theorem previewRedeem_eq_ok {shares totalAssets totalShares assets : UInt64} :
    previewRedeem shares totalAssets totalShares = .ok assets ↔
      shares.toNat * (totalAssets.toNat + 10 ^ 6) < 2 ^ 128 ∧
      assets.toNat =
        shares.toNat * (totalAssets.toNat + 10 ^ 6) / (totalShares.toNat + 10 ^ 9) := by
  have hA := totalAssets.toNat_lt
  have hS := totalShares.toNat_lt
  simp only [previewRedeem, virtualAssetsOffset_toNat, virtualSharesOffset_toNat, bind_eq_ok,
    okOr_eq_ok, U128.checkedAdd_eq_some, U128.checkedMul_eq_some, U128.checkedDiv_eq_some,
    UInt64.tryFrom_eq_some]
  constructor
  · rintro ⟨_, ⟨-, rfl⟩, _, ⟨-, rfl⟩, _, ⟨hproduct, rfl⟩, _, ⟨-, rfl⟩, h⟩
    exact ⟨hproduct, h⟩
  · rintro ⟨hproduct, h⟩
    exact ⟨_, ⟨by omega, rfl⟩, _, ⟨by omega, rfl⟩, _, ⟨hproduct, rfl⟩, _, ⟨by omega, rfl⟩, h⟩

/-! ## Bounds -/

/-- What `validate` accepts. -/
theorem FeeCurve.validate_eq_ok {curve : FeeCurve} {u : Unit} :
    curve.validate = .ok u ↔
      curve.utilizationKinkBps.toNat ≤ 10000 ∧
      curve.baseRateBps.toNat ≤ curve.kinkRateBps.toNat ∧
      curve.kinkRateBps.toNat ≤ curve.maxRateBps.toNat ∧ curve.maxRateBps.toNat ≤ 10000 := by
  simp only [FeeCurve.validate, bind_eq_ok, require_eq_ok, exists_const, UInt64.le_iff_toNat_le,
    UInt16.le_iff_toNat_le, UInt16.toNat_toUInt64, bpsDenominator_toNat]

/-- On both sides of the kink the rate starts from the base rate. -/
theorem baseRateBps_le_utilizationRateBps {utilizationBps rateBps : UInt64} {curve : FeeCurve}
    (hordered : curve.baseRateBps.toNat ≤ curve.kinkRateBps.toNat)
    (h : utilizationRateBps utilizationBps curve = .ok rateBps) :
    curve.baseRateBps.toNat ≤ rateBps.toNat := by
  unfold utilizationRateBps at h
  simp only [ite_eq_ok, bind_eq_ok, okOr_eq_ok, UInt64.checkedAdd_eq_some,
    UInt16.toNat_toUInt64] at h
  obtain ⟨-, _, -, _, -, _, -, hrate⟩ | ⟨-, _, -, hrate⟩ := h
  · omega
  · omega

/-- The fee is between the base rate and the maximal rate of a valid curve. -/
theorem computeFeeAmount_bounds {principal durationSeconds utilizationBps fee : UInt64}
    {defaultCount : UInt32} {curve : FeeCurve} (hvalid : curve.validate = .ok ())
    (h : computeFeeAmount principal durationSeconds utilizationBps defaultCount curve = .ok fee) :
    principal.toNat * curve.baseRateBps.toNat / 10000 ≤ fee.toNat ∧
    fee.toNat ≤ principal.toNat * curve.maxRateBps.toNat / 10000 := by
  obtain ⟨-, hbase, hkink, -⟩ := FeeCurve.validate_eq_ok.mp hvalid
  simp only [computeFeeAmount, bind_eq_ok, okOr_eq_ok, UInt64.checkedAdd_eq_some,
    U128.checkedMul_eq_some, U128.checkedDiv_eq_some, UInt64.tryFrom_eq_some,
    bpsDenominator_toNat] at h
  obtain ⟨rate, hrate, withDuration, hduration, withRisk, hrisk, _, ⟨-, rfl⟩, _, ⟨-, rfl⟩,
    hfee⟩ := h
  have hlow := baseRateBps_le_utilizationRateBps hbase hrate
  have hmin : (min withRisk curve.maxRateBps.toUInt64).toNat =
      min withRisk.toNat curve.maxRateBps.toNat := by
    rw [UInt64.toNat_min, UInt16.toNat_toUInt64]
  rw [hfee, hmin]
  constructor
  · apply Nat.div_le_div_right
    apply Nat.mul_le_mul_left
    omega
  · apply Nat.div_le_div_right
    apply Nat.mul_le_mul_left
    exact Nat.min_le_right _ _

/-- The penalty is at least a tenth of a percent. -/
theorem le_computeLatePenaltyPerDay {principal penalty : UInt64} {curve : FeeCurve}
    (h : computeLatePenaltyPerDay principal curve = .ok penalty) :
    principal.toNat / 1000 ≤ penalty.toNat := by
  simp only [computeLatePenaltyPerDay, bind_eq_ok, okOr_eq_ok, ite_eq_ok, pure_eq_ok,
    U128.checkedMul_eq_some, U128.checkedDiv_eq_some, UInt64.tryFrom_eq_some,
    bpsDenominator_toNat] at h
  have hbase : principal.toNat * 10 / 10000 = principal.toNat / 1000 := by omega
  obtain ⟨_, ⟨-, rfl⟩, _, ⟨-, rfl⟩, ⟨-, _, ⟨-, rfl⟩, _, ⟨-, rfl⟩, hpenalty⟩ |
    ⟨-, _, rfl, hpenalty⟩⟩ := h
  · rw [hpenalty, ← hbase]
    apply (Nat.le_div_iff_mul_le (by decide)).mpr
    apply Nat.mul_le_mul_left
    exact Nat.le_add_right _ _
  · rw [hpenalty, hbase]

/-- The largest surcharge raises it by a factor of 7.5535. -/
theorem computeLatePenaltyPerDay_le {principal penalty : UInt64} {curve : FeeCurve}
    (h : computeLatePenaltyPerDay principal curve = .ok penalty) :
    penalty.toNat ≤ principal.toNat / 1000 * 75535 / 10000 := by
  have hsurcharge := curve.poolLossSurchargeBps.toNat_lt
  simp only [computeLatePenaltyPerDay, bind_eq_ok, okOr_eq_ok, ite_eq_ok, pure_eq_ok,
    U128.checkedMul_eq_some, U128.checkedDiv_eq_some, UInt64.tryFrom_eq_some,
    bpsDenominator_toNat] at h
  have hbase : principal.toNat * 10 / 10000 = principal.toNat / 1000 := by omega
  obtain ⟨_, ⟨-, rfl⟩, _, ⟨-, rfl⟩, ⟨-, _, ⟨-, rfl⟩, _, ⟨-, rfl⟩, hpenalty⟩ |
    ⟨-, _, rfl, hpenalty⟩⟩ := h
  · rw [hpenalty, hbase]
    apply Nat.div_le_div_right
    apply Nat.mul_le_mul_left
    omega
  · rw [hpenalty, hbase]
    omega

end CredMesh.Escrow
