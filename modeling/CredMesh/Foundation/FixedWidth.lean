import Mathlib.Tactic.Common
import Mathlib.Tactic.NormNum

/-!
# Checked and saturating machine arithmetic

Unsigned and signed 64-bit integers are Lean's own `UInt64` and `Int64`. The operations here are
the ones that report or clamp an overflow; each is specified through the exact value in `ℕ` or
`ℤ`, so that a successful chain of checked operations turns into linear arithmetic. Products are
formed in 128 bits, which are naturals with an explicit bound.
-/

namespace UInt64

def checkedAdd (a b : UInt64) : Option UInt64 :=
  if a.toNat + b.toNat < 2 ^ 64 then some (.ofNat (a.toNat + b.toNat)) else none

def checkedSub (a b : UInt64) : Option UInt64 :=
  if b.toNat ≤ a.toNat then some (.ofNat (a.toNat - b.toNat)) else none

def checkedMul (a b : UInt64) : Option UInt64 :=
  if a.toNat * b.toNat < 2 ^ 64 then some (.ofNat (a.toNat * b.toNat)) else none

def saturatingSub (a b : UInt64) : UInt64 :=
  .ofNat (a.toNat - b.toNat)

def saturatingMul (a b : UInt64) : UInt64 :=
  .ofNat (min (a.toNat * b.toNat) (2 ^ 64 - 1))

/-- Narrowing from a wider unsigned value, refused when the value does not fit. -/
def tryFrom (value : ℕ) : Option UInt64 :=
  if value < 2 ^ 64 then some (.ofNat value) else none

/-- An exact value that fits is recovered from its 64-bit representation. -/
theorem ofNat_eq_iff {value : ℕ} (h : value < 2 ^ 64) {c : UInt64} :
    UInt64.ofNat value = c ↔ c.toNat = value := by
  rw [← UInt64.toNat_inj, UInt64.toNat_ofNat_of_lt' h]
  exact eq_comm

/-- Every value in range is represented. -/
theorem exists_toNat_eq {value : ℕ} (h : value < 2 ^ 64) : ∃ c : UInt64, c.toNat = value :=
  ⟨.ofNat value, (ofNat_eq_iff h).mp rfl⟩

theorem tryFrom_eq_some {value : ℕ} {c : UInt64} :
    tryFrom value = some c ↔ c.toNat = value := by
  unfold tryFrom
  have hc := c.toNat_lt
  split
  case isTrue h => rw [Option.some_inj, ofNat_eq_iff h]
  case isFalse h =>
    simp only [reduceCtorEq, false_iff]
    omega

theorem checkedAdd_eq_some {a b c : UInt64} :
    a.checkedAdd b = some c ↔ c.toNat = a.toNat + b.toNat :=
  tryFrom_eq_some

theorem checkedMul_eq_some {a b c : UInt64} :
    a.checkedMul b = some c ↔ c.toNat = a.toNat * b.toNat :=
  tryFrom_eq_some

theorem checkedSub_eq_some {a b c : UInt64} :
    a.checkedSub b = some c ↔ c.toNat + b.toNat = a.toNat := by
  unfold checkedSub
  have ha := a.toNat_lt
  split
  case isTrue h =>
    rw [Option.some_inj, ofNat_eq_iff (by omega)]
    omega
  case isFalse h =>
    simp only [reduceCtorEq, false_iff]
    omega

theorem exists_add_eq {a b : UInt64} (h : b.toNat ≤ a.toNat) :
    ∃ c : UInt64, c.toNat + b.toNat = a.toNat := by
  have ha := a.toNat_lt
  obtain ⟨c, hc⟩ : ∃ c : UInt64, c.toNat = a.toNat - b.toNat := exists_toNat_eq (by omega)
  exact ⟨c, by omega⟩

theorem checkedSub_isSome {a b : UInt64} : (a.checkedSub b).isSome ↔ b.toNat ≤ a.toNat := by
  unfold checkedSub
  split <;> simp_all

@[simp]
theorem toNat_saturatingSub (a b : UInt64) : (a.saturatingSub b).toNat = a.toNat - b.toNat := by
  have ha := a.toNat_lt
  exact UInt64.toNat_ofNat_of_lt' (by simp only [UInt64.size]; omega)

@[simp]
theorem toNat_saturatingMul (a b : UInt64) :
    (a.saturatingMul b).toNat = min (a.toNat * b.toNat) (2 ^ 64 - 1) :=
  UInt64.toNat_ofNat_of_lt' (by simp only [UInt64.size]; omega)

end UInt64

namespace Int64

def checkedAdd (a b : Int64) : Option Int64 :=
  if -2 ^ 63 ≤ a.toInt + b.toInt ∧ a.toInt + b.toInt < 2 ^ 63 then
    some (.ofInt (a.toInt + b.toInt)) else none

def checkedSub (a b : Int64) : Option Int64 :=
  if -2 ^ 63 ≤ a.toInt - b.toInt ∧ a.toInt - b.toInt < 2 ^ 63 then
    some (.ofInt (a.toInt - b.toInt)) else none

def saturatingSub (a b : Int64) : Int64 :=
  .ofInt (max (-2 ^ 63) (min (a.toInt - b.toInt) (2 ^ 63 - 1)))

/-- The shared shape of the checked operations: an exact result, kept when it fits. -/
theorem ite_ofInt_eq_some {value : ℤ} {c : Int64} :
    (if -2 ^ 63 ≤ value ∧ value < 2 ^ 63 then some (Int64.ofInt value) else none) = some c ↔
      c.toInt = value := by
  have hlo := c.le_toInt
  have hhi := c.toInt_lt
  split
  case isTrue h =>
    rw [Option.some_inj, ← Int64.toInt_inj, Int64.toInt_ofInt_of_le h.1 h.2]
    exact eq_comm
  case isFalse h =>
    simp only [reduceCtorEq, false_iff]
    omega

/-- Every value in range is represented. -/
theorem exists_toInt_eq {value : ℤ} (hlo : -2 ^ 63 ≤ value) (hhi : value < 2 ^ 63) :
    ∃ c : Int64, c.toInt = value :=
  ⟨.ofInt value, Int64.toInt_ofInt_of_le hlo hhi⟩

theorem checkedAdd_eq_some {a b c : Int64} :
    a.checkedAdd b = some c ↔ c.toInt = a.toInt + b.toInt :=
  ite_ofInt_eq_some

theorem checkedSub_eq_some {a b c : Int64} :
    a.checkedSub b = some c ↔ c.toInt = a.toInt - b.toInt :=
  ite_ofInt_eq_some

theorem toInt_saturatingSub (a b : Int64) :
    (a.saturatingSub b).toInt = max (-2 ^ 63) (min (a.toInt - b.toInt) (2 ^ 63 - 1)) :=
  Int64.toInt_ofInt_of_le (by omega) (by omega)

theorem toInt_max_zero (a : Int64) : (max a 0).toInt = max a.toInt 0 := by
  change (if a ≤ 0 then (0 : Int64) else a).toInt = _
  have hle : a ≤ 0 ↔ a.toInt ≤ 0 := Int64.le_iff_toInt_le
  split
  case isTrue h => simp [hle.mp h]
  case isFalse h =>
    rw [hle] at h
    omega

theorem toNat_toUInt64 {a : Int64} (h : 0 ≤ a.toInt) : a.toUInt64.toNat = a.toInt.toNat := by
  rw [Int64.toNat_toUInt64_of_le (Int64.le_iff_toInt_le.mpr h)]
  rfl

end Int64

namespace U128

def checkedAdd (a b : ℕ) : Option ℕ :=
  if a + b < 2 ^ 128 then some (a + b) else none

def checkedMul (a b : ℕ) : Option ℕ :=
  if a * b < 2 ^ 128 then some (a * b) else none

def checkedDiv (a b : ℕ) : Option ℕ :=
  if b = 0 then none else some (a / b)

theorem checkedAdd_eq_some {a b c : ℕ} :
    checkedAdd a b = some c ↔ a + b < 2 ^ 128 ∧ c = a + b := by
  unfold checkedAdd
  split <;> simp_all [eq_comm]

theorem checkedMul_eq_some {a b c : ℕ} :
    checkedMul a b = some c ↔ a * b < 2 ^ 128 ∧ c = a * b := by
  unfold checkedMul
  split <;> simp_all [eq_comm]

theorem checkedDiv_eq_some {a b c : ℕ} :
    checkedDiv a b = some c ↔ b ≠ 0 ∧ c = a / b := by
  unfold checkedDiv
  split <;> simp_all [eq_comm]

end U128
