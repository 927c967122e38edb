import Mathlib.Algebra.Order.Ring.Nat
import Mathlib.Order.Monotone.Basic

/-!
# Rounded interpolation

A value that climbs from one level to another in equal steps, rounded down, and a curve made of two
such climbs that meet at a kink. Without steps there is nothing to climb and the value stays at the
lower level. Both are monotone, and the curve is so across the kink.
-/

namespace Interpolation

/-- The value after some of the steps from `low` to `high`. -/
def climb (low high steps step : ℕ) : ℕ := low + step * (high - low) / steps

section Climb

variable {low high steps : ℕ}

theorem le_climb (low high steps step : ℕ) : low ≤ climb low high steps step :=
  Nat.le_add_right _ _

theorem climb_mono (low high steps : ℕ) : Monotone (climb low high steps) := by
  intro first second h
  apply Nat.add_le_add_left
  apply Nat.div_le_div_right
  exact Nat.mul_le_mul_right _ h

/-- The climb does not overshoot. -/
theorem climb_le {step : ℕ} (hordered : low ≤ high) (hstep : step ≤ steps) :
    climb low high steps step ≤ high := by
  unfold climb
  have hpart : step * (high - low) / steps ≤ high - low :=
    Nat.div_le_of_le_mul (Nat.mul_le_mul_right _ hstep)
  omega

end Climb

/-- A climb from `base` to `middle` at the kink, and from there to `top` at the end. -/
def kinked (kink full base middle top x : ℕ) : ℕ :=
  if kink < x then climb middle top (full - kink) (x - kink) else climb base middle kink x

section Kinked

variable {kink full base middle top : ℕ}

theorem le_kinked (hordered : base ≤ middle) (x : ℕ) :
    base ≤ kinked kink full base middle top x := by
  unfold kinked
  split
  case isTrue => exact hordered.trans (le_climb _ _ _ _)
  case isFalse => exact le_climb _ _ _ _

theorem kinked_le {x : ℕ} (hlow : base ≤ middle) (hhigh : middle ≤ top) (hx : x ≤ full) :
    kinked kink full base middle top x ≤ top := by
  unfold kinked
  split
  case isTrue => exact climb_le hhigh (Nat.sub_le_sub_right hx kink)
  case isFalse h => exact (climb_le hlow (Nat.le_of_not_lt h)).trans hhigh

/-- Up to the kink the curve stays below the level it has there, and after it above. -/
theorem kinked_mono (hlow : base ≤ middle) : Monotone (kinked kink full base middle top) := by
  intro x y h
  unfold kinked
  by_cases hx : kink < x
  · rw [if_pos hx, if_pos (hx.trans_le h)]
    exact climb_mono _ _ _ (Nat.sub_le_sub_right h kink)
  · rw [if_neg hx]
    by_cases hy : kink < y
    · rw [if_pos hy]
      calc
        climb base middle kink x ≤ middle := climb_le hlow (Nat.le_of_not_lt hx)
        _ ≤ climb middle top (full - kink) (y - kink) := le_climb _ _ _ _
    · rw [if_neg hy]
      exact climb_mono _ _ _ h

end Kinked

end Interpolation
