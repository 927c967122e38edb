import CredMesh.Escrow.Pricing
import CredMesh.Foundation.Interpolation

/-!
# The fee as a function

On a valid curve the fee is always defined: no operation of `compute_fee_amount` overflows, the
unchecked ones included. Its value is the principal times a rate in basis points, where the rate is
a kinked climb in the utilization with premiums for duration and risk, cut off at the maximal rate.
Bounds and monotonicity are read off that value.
-/

namespace CredMesh.Escrow

open Outcome Interpolation

/-- The rate of a curve in basis points. -/
def FeeCurve.rateBps (curve : FeeCurve) (durationSeconds utilizationBps defaultCount : ℕ) : ℕ :=
  min (kinked curve.utilizationKinkBps.toNat 10000 curve.baseRateBps.toNat
      curve.kinkRateBps.toNat curve.maxRateBps.toNat utilizationBps +
    durationSeconds / 86400 * curve.durationPerDayBps.toNat +
    min defaultCount 5 * curve.riskPremiumBps.toNat) curve.maxRateBps.toNat

section Rate

variable {curve : FeeCurve}

theorem FeeCurve.le_rateBps (hvalid : curve.validate = .ok ())
    (durationSeconds utilizationBps defaultCount : ℕ) :
    curve.baseRateBps.toNat ≤ curve.rateBps durationSeconds utilizationBps defaultCount := by
  obtain ⟨-, hbase, hkink, -⟩ := FeeCurve.validate_eq_ok.mp hvalid
  apply le_min
  · rw [Nat.add_assoc]
    exact (le_kinked hbase _).trans (Nat.le_add_right _ _)
  · exact hbase.trans hkink

theorem FeeCurve.rateBps_le (curve : FeeCurve) (durationSeconds utilizationBps defaultCount : ℕ) :
    curve.rateBps durationSeconds utilizationBps defaultCount ≤ curve.maxRateBps.toNat :=
  Nat.min_le_right _ _

/-- The rate grows with each of its arguments. -/
theorem FeeCurve.rateBps_mono (hvalid : curve.validate = .ok ())
    {duration duration' utilization utilization' defaults defaults' : ℕ}
    (hduration : duration ≤ duration') (hutilization : utilization ≤ utilization')
    (hdefaults : defaults ≤ defaults') :
    curve.rateBps duration utilization defaults ≤
      curve.rateBps duration' utilization' defaults' := by
  obtain ⟨-, hbase, -, -⟩ := FeeCurve.validate_eq_ok.mp hvalid
  apply min_le_min _ (le_refl _)
  apply Nat.add_le_add
  · apply Nat.add_le_add
    · exact kinked_mono hbase hutilization
    · exact Nat.mul_le_mul_right _ (Nat.div_le_div_right hduration)
  · exact Nat.mul_le_mul_right _ (min_le_min hdefaults (le_refl _))

end Rate

/-- Above the kink, both unchecked subtractions and the unchecked addition stay in range. -/
theorem utilizationRateBps_above {curve : FeeCurve} {utilizationBps rateBps : UInt64}
    (hvalid : curve.validate = .ok ()) (hrange : utilizationBps.toNat ≤ 10000)
    (habove : curve.utilizationKinkBps.toNat < utilizationBps.toNat) :
    utilizationRateBps utilizationBps curve = .ok rateBps ↔
      rateBps.toNat = climb curve.kinkRateBps.toNat curve.maxRateBps.toNat
        (10000 - curve.utilizationKinkBps.toNat)
        (utilizationBps.toNat - curve.utilizationKinkBps.toNat) := by
  obtain ⟨-, -, hmiddle, hmax⟩ := FeeCurve.validate_eq_ok.mp hvalid
  have hbranch : curve.utilizationKinkBps.toUInt64 < utilizationBps ∧
      0 < bpsDenominator.saturatingSub curve.utilizationKinkBps.toUInt64 := by
    simp only [UInt64.lt_iff_toNat_lt, UInt64.toNat_saturatingSub, UInt16.toNat_toUInt64,
      bpsDenominator_toNat, UInt64.toNat_zero]
    omega
  simp only [utilizationRateBps, if_pos hbranch, bind_eq_ok, okOr_eq_ok,
    UInt64.checkedSub_eq_some, UInt64.checkedMul_eq_some, UInt64.checkedAdd_eq_some,
    UInt64.toNat_div, UInt64.toNat_saturatingSub, UInt16.toNat_toUInt64, bpsDenominator_toNat]
  constructor
  · rintro ⟨extra, hextra, span, hspan, scaled, hscaled, hrate⟩
    have hextra : extra.toNat = utilizationBps.toNat - curve.utilizationKinkBps.toNat := by omega
    have hspan : span.toNat = 10000 - curve.utilizationKinkBps.toNat := by omega
    rw [hrate, hscaled, hextra, hspan, climb]
  · intro hrate
    obtain ⟨extra, hextra⟩ := UInt64.exists_toNat_eq
      (show utilizationBps.toNat - curve.utilizationKinkBps.toNat < 2 ^ 64 by omega)
    obtain ⟨span, hspan⟩ := UInt64.exists_toNat_eq
      (show 10000 - curve.utilizationKinkBps.toNat < 2 ^ 64 by omega)
    have hproduct : extra.toNat * (curve.maxRateBps.toNat - curve.kinkRateBps.toNat) ≤
        10000 * 10000 := Nat.mul_le_mul (by omega) (by omega)
    obtain ⟨scaled, hscaled⟩ := UInt64.exists_toNat_eq (Nat.lt_of_le_of_lt hproduct (by decide))
    refine ⟨extra, by omega, span, by omega, scaled, hscaled, ?_⟩
    rw [hrate, hscaled, hextra, hspan, climb]

/-- Up to the kink the division is skipped where the kink is zero. -/
theorem utilizationRateBps_below {curve : FeeCurve} {utilizationBps rateBps : UInt64}
    (hvalid : curve.validate = .ok ())
    (hbelow : ¬ curve.utilizationKinkBps.toNat < utilizationBps.toNat) :
    utilizationRateBps utilizationBps curve = .ok rateBps ↔
      rateBps.toNat = climb curve.baseRateBps.toNat curve.kinkRateBps.toNat
        curve.utilizationKinkBps.toNat utilizationBps.toNat := by
  obtain ⟨hkink, hbase, hmiddle, hmax⟩ := FeeCurve.validate_eq_ok.mp hvalid
  have hbranch : ¬ (curve.utilizationKinkBps.toUInt64 < utilizationBps ∧
      0 < bpsDenominator.saturatingSub curve.utilizationKinkBps.toUInt64) := by
    simp only [UInt64.lt_iff_toNat_lt, UInt16.toNat_toUInt64]
    omega
  have hquotient (scaled : UInt64) :
      (if 0 < curve.utilizationKinkBps.toUInt64 then
        scaled / curve.utilizationKinkBps.toUInt64 else 0).toNat =
        scaled.toNat / curve.utilizationKinkBps.toNat := by
    split
    case isTrue => rw [UInt64.toNat_div, UInt16.toNat_toUInt64]
    case isFalse h =>
      have hzero : curve.utilizationKinkBps.toNat = 0 := by
        simp only [UInt64.lt_iff_toNat_lt, UInt16.toNat_toUInt64, UInt64.toNat_zero] at h
        omega
      rw [hzero, Nat.div_zero, UInt64.toNat_zero]
  simp only [utilizationRateBps, if_neg hbranch, bind_eq_ok, okOr_eq_ok,
    UInt64.checkedMul_eq_some, UInt64.checkedAdd_eq_some, hquotient, UInt64.toNat_saturatingSub,
    UInt16.toNat_toUInt64]
  constructor
  · rintro ⟨scaled, hscaled, hrate⟩
    rw [hrate, hscaled, climb]
  · intro hrate
    have hproduct : utilizationBps.toNat * (curve.kinkRateBps.toNat - curve.baseRateBps.toNat) ≤
        10000 * 10000 := Nat.mul_le_mul (by omega) (by omega)
    obtain ⟨scaled, hscaled⟩ := UInt64.exists_toNat_eq (Nat.lt_of_le_of_lt hproduct (by decide))
    refine ⟨scaled, hscaled, ?_⟩
    rw [hrate, hscaled, climb]

theorem utilizationRateBps_eq_ok {curve : FeeCurve} {utilizationBps rateBps : UInt64}
    (hvalid : curve.validate = .ok ()) (hrange : utilizationBps.toNat ≤ 10000) :
    utilizationRateBps utilizationBps curve = .ok rateBps ↔
      rateBps.toNat = kinked curve.utilizationKinkBps.toNat 10000 curve.baseRateBps.toNat
        curve.kinkRateBps.toNat curve.maxRateBps.toNat utilizationBps.toNat := by
  unfold kinked
  split
  case isTrue habove => exact utilizationRateBps_above hvalid hrange habove
  case isFalse hbelow => exact utilizationRateBps_below hvalid hbelow

/-- The premium of the longest duration fits, so saturation never binds. -/
theorem durationPremium_toNat (durationSeconds : UInt64) (perDay : UInt16) :
    ((durationSeconds / 86400).saturatingMul perDay.toUInt64).toNat =
      durationSeconds.toNat / 86400 * perDay.toNat := by
  have hseconds := durationSeconds.toNat_lt
  have hperDay := perDay.toNat_lt
  have hpremium : durationSeconds.toNat / 86400 * perDay.toNat ≤ 213503982334601 * 65535 :=
    Nat.mul_le_mul (by omega) (by omega)
  have hday : (86400 : UInt64).toNat = 86400 := rfl
  rw [UInt64.toNat_saturatingMul, UInt64.toNat_div, UInt16.toNat_toUInt64, hday]
  omega

theorem riskPremium_toNat (defaultCount : UInt32) (risk : UInt16) :
    ((min defaultCount.toUInt64 5).saturatingMul risk.toUInt64).toNat =
      min defaultCount.toNat 5 * risk.toNat := by
  have hrisk := risk.toNat_lt
  have hpremium : min defaultCount.toNat 5 * risk.toNat ≤ 5 * 65535 :=
    Nat.mul_le_mul (Nat.min_le_right _ _) (by omega)
  have hfive : (5 : UInt64).toNat = 5 := rfl
  rw [UInt64.toNat_saturatingMul, UInt64.toNat_min, UInt32.toNat_toUInt64, UInt16.toNat_toUInt64,
    hfive]
  omega

/-- The exact fee, for every principal, duration and number of defaults. -/
theorem computeFeeAmount_eq_ok {curve : FeeCurve}
    {principal durationSeconds utilizationBps fee : UInt64} {defaultCount : UInt32}
    (hvalid : curve.validate = .ok ()) (hrange : utilizationBps.toNat ≤ 10000) :
    computeFeeAmount principal durationSeconds utilizationBps defaultCount curve = .ok fee ↔
      fee.toNat = principal.toNat * curve.rateBps durationSeconds.toNat utilizationBps.toNat
        defaultCount.toNat / 10000 := by
  obtain ⟨-, hbase, hkink, hmax⟩ := FeeCurve.validate_eq_ok.mp hvalid
  have hrate : kinked curve.utilizationKinkBps.toNat 10000 curve.baseRateBps.toNat
      curve.kinkRateBps.toNat curve.maxRateBps.toNat utilizationBps.toNat ≤
        curve.maxRateBps.toNat := kinked_le hbase hkink hrange
  simp only [computeFeeAmount, bind_eq_ok, okOr_eq_ok, utilizationRateBps_eq_ok hvalid hrange,
    UInt64.checkedAdd_eq_some, U128.checkedMul_eq_some, U128.checkedDiv_eq_some,
    UInt64.tryFrom_eq_some, durationPremium_toNat, riskPremium_toNat, bpsDenominator_toNat,
    UInt64.toNat_min, UInt16.toNat_toUInt64]
  constructor
  · rintro ⟨rate, hrate, withDuration, hduration, withRisk, hrisk, _, ⟨-, rfl⟩, _, ⟨-, rfl⟩, hfee⟩
    rw [hfee, hrisk, hduration, hrate, FeeCurve.rateBps]
  · intro hfee
    have hseconds := durationSeconds.toNat_lt
    have hduration : durationSeconds.toNat / 86400 * curve.durationPerDayBps.toNat ≤
        213503982334601 * 65535 :=
      Nat.mul_le_mul (by omega) (by have := curve.durationPerDayBps.toNat_lt; omega)
    have hrisk : min defaultCount.toNat 5 * curve.riskPremiumBps.toNat ≤ 5 * 65535 :=
      Nat.mul_le_mul (Nat.min_le_right _ _) (by have := curve.riskPremiumBps.toNat_lt; omega)
    obtain ⟨rate, hrate'⟩ := UInt64.exists_toNat_eq
      (show kinked curve.utilizationKinkBps.toNat 10000 curve.baseRateBps.toNat
        curve.kinkRateBps.toNat curve.maxRateBps.toNat utilizationBps.toNat < 2 ^ 64 by omega)
    obtain ⟨withDuration, hduration'⟩ := UInt64.exists_toNat_eq (show rate.toNat +
      durationSeconds.toNat / 86400 * curve.durationPerDayBps.toNat < 2 ^ 64 by omega)
    obtain ⟨withRisk, hrisk'⟩ := UInt64.exists_toNat_eq (show withDuration.toNat +
      min defaultCount.toNat 5 * curve.riskPremiumBps.toNat < 2 ^ 64 by omega)
    have hscaled : principal.toNat * min withRisk.toNat curve.maxRateBps.toNat ≤
        2 ^ 64 * 10000 :=
      Nat.mul_le_mul principal.toNat_lt.le ((Nat.min_le_right _ _).trans hmax)
    refine ⟨rate, hrate', withDuration, hduration', withRisk, hrisk', _, ⟨by omega, rfl⟩, _,
      ⟨by decide, rfl⟩, ?_⟩
    rw [hfee, hrisk', hduration', hrate', FeeCurve.rateBps]

/-- The fee is always defined. -/
theorem exists_computeFeeAmount {curve : FeeCurve} {utilizationBps : UInt64}
    (hvalid : curve.validate = .ok ()) (hrange : utilizationBps.toNat ≤ 10000)
    (principal durationSeconds : UInt64) (defaultCount : UInt32) :
    ∃ fee, computeFeeAmount principal durationSeconds utilizationBps defaultCount curve =
      .ok fee := by
  have hmax := (FeeCurve.validate_eq_ok.mp hvalid).2.2.2
  have hprincipal := principal.toNat_lt
  have hscaled : principal.toNat * curve.rateBps durationSeconds.toNat utilizationBps.toNat
      defaultCount.toNat ≤ principal.toNat * 10000 :=
    Nat.mul_le_mul_left _ ((curve.rateBps_le _ _ _).trans hmax)
  obtain ⟨fee, hfee⟩ := UInt64.exists_toNat_eq (show principal.toNat *
    curve.rateBps durationSeconds.toNat utilizationBps.toNat defaultCount.toNat / 10000 < 2 ^ 64 by
      omega)
  exact ⟨fee, (computeFeeAmount_eq_ok hvalid hrange).mpr hfee⟩

/-- A sixth default counts no more than the fifth. -/
theorem computeFeeAmount_defaultCount {principal durationSeconds utilizationBps : UInt64}
    {defaultCount : UInt32} {curve : FeeCurve} (h : 5 ≤ defaultCount) :
    computeFeeAmount principal durationSeconds utilizationBps defaultCount curve =
      computeFeeAmount principal durationSeconds utilizationBps 5 curve := by
  have hclamped : min defaultCount.toUInt64 5 = min (5 : UInt32).toUInt64 5 := by
    have hfive : 5 ≤ defaultCount.toNat := UInt32.le_iff_toNat_le.mp h
    have hconst : (5 : UInt64).toNat = 5 := rfl
    have hconst' : (5 : UInt32).toNat = 5 := rfl
    rw [← UInt64.toNat_inj, UInt64.toNat_min, UInt64.toNat_min, UInt32.toNat_toUInt64,
      UInt32.toNat_toUInt64, hconst, hconst']
    omega
  simp only [computeFeeAmount, hclamped]

/-- On every valid curve the fee is defined for all arguments up to full utilization. It lies
between the base and the maximal rate, grows with each argument, and from the fifth default on
stays the same. -/
theorem fee_function {curve : FeeCurve} (hvalid : curve.validate = .ok ()) :
    (∀ principal durationSeconds utilizationBps defaultCount, utilizationBps ≤ bpsDenominator →
      ∃ fee, computeFeeAmount principal durationSeconds utilizationBps defaultCount curve =
          .ok fee ∧
        principal.toNat * curve.baseRateBps.toNat / 10000 ≤ fee.toNat ∧
        fee.toNat ≤ principal.toNat * curve.maxRateBps.toNat / 10000) ∧
    (∀ principal principal' durationSeconds durationSeconds' utilizationBps utilizationBps'
        defaultCount defaultCount' fee fee',
      principal ≤ principal' → durationSeconds ≤ durationSeconds' →
      utilizationBps ≤ utilizationBps' → utilizationBps' ≤ bpsDenominator →
      defaultCount ≤ defaultCount' →
      computeFeeAmount principal durationSeconds utilizationBps defaultCount curve = .ok fee →
      computeFeeAmount principal' durationSeconds' utilizationBps' defaultCount' curve =
        .ok fee' →
      fee ≤ fee') ∧
    ∀ principal durationSeconds utilizationBps defaultCount, 5 ≤ defaultCount →
      computeFeeAmount principal durationSeconds utilizationBps defaultCount curve =
        computeFeeAmount principal durationSeconds utilizationBps 5 curve := by
  refine ⟨?_, ?_, fun _ _ _ _ ↦ computeFeeAmount_defaultCount⟩
  · intro principal durationSeconds utilizationBps defaultCount hrange
    obtain ⟨fee, hfee⟩ := exists_computeFeeAmount hvalid (UInt64.le_iff_toNat_le.mp hrange)
      principal durationSeconds defaultCount
    refine ⟨fee, hfee, ?_⟩
    rw [(computeFeeAmount_eq_ok hvalid (UInt64.le_iff_toNat_le.mp hrange)).mp hfee]
    constructor
    · apply Nat.div_le_div_right
      exact Nat.mul_le_mul_left _ (curve.le_rateBps hvalid _ _ _)
    · apply Nat.div_le_div_right
      exact Nat.mul_le_mul_left _ (curve.rateBps_le _ _ _)
  · intro principal principal' durationSeconds durationSeconds' utilizationBps utilizationBps'
      defaultCount defaultCount' fee fee' hprincipal hduration hutilization hrange hdefaults hfee
      hfee'
    have hfull := UInt64.le_iff_toNat_le.mp hrange
    have hused := UInt64.le_iff_toNat_le.mp hutilization
    have hrate := curve.rateBps_mono hvalid (UInt64.le_iff_toNat_le.mp hduration) hused
      (UInt32.le_iff_toNat_le.mp hdefaults)
    rw [UInt64.le_iff_toNat_le, (computeFeeAmount_eq_ok hvalid (hused.trans hfull)).mp hfee,
      (computeFeeAmount_eq_ok hvalid hfull).mp hfee']
    apply Nat.div_le_div_right
    exact Nat.mul_le_mul (UInt64.le_iff_toNat_le.mp hprincipal) hrate

/-- A curve whose kink is at zero, with premiums as high as they get. -/
def steepCurve : FeeCurve where
  utilizationKinkBps := 0
  baseRateBps := 100
  kinkRateBps := 300
  maxRateBps := 10000
  durationPerDayBps := 65535
  riskPremiumBps := 65535
  poolLossSurchargeBps := 0

/-- Any use at all leads from the base rate to the kink, and the maximal duration to the cap. -/
theorem fee_function_steepCurve :
    (∃ fee, computeFeeAmount 1000000 0 0 0 steepCurve = .ok fee ∧ 10000 ≤ fee.toNat) ∧
    ∃ fee, computeFeeAmount 1000000 18446744073709551615 1 7 steepCurve = .ok fee ∧
      fee.toNat ≤ 1000000 := by
  obtain ⟨htotal, -, -⟩ :=
    fee_function (show steepCurve.validate = .ok () from FeeCurve.validate_eq_ok.mpr (by decide))
  obtain ⟨fee, hfee, hbase, -⟩ := htotal 1000000 0 0 0 (by decide)
  obtain ⟨fee', hfee', -, hmax⟩ := htotal 1000000 18446744073709551615 1 7 (by decide)
  exact ⟨⟨fee, hfee, hbase⟩, fee', hfee', hmax⟩

end CredMesh.Escrow
