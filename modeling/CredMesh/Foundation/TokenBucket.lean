import Mathlib.Algebra.Order.Field.Basic
import Mathlib.Data.Nat.Cast.Order.Ring
import Mathlib.Tactic.Linarith

/-!
# Token buckets

A bucket is refilled at a constant rate up to its capacity. What it holds is told by the times at
which tokens were taken from it: it is the least room that any window up to now leaves below the
capacity and what the rate adds over the window. So a token can be taken exactly when no window
would go over its bound, and in the end none does.
-/

namespace TokenBucket

variable {𝕜 : Type} [Field 𝕜] [LinearOrder 𝕜]

structure Bucket (𝕜 : Type) where
  tokens : 𝕜
  last : 𝕜

def full (capacity now : 𝕜) : Bucket 𝕜 := ⟨capacity, now⟩

def refill (capacity rate : 𝕜) (bucket : Bucket 𝕜) (now : 𝕜) : Bucket 𝕜 :=
  let elapsed := now - bucket.last
  ⟨min capacity (bucket.tokens + elapsed * rate), now⟩

def take (bucket : Bucket 𝕜) (cost : 𝕜) : Bucket 𝕜 :=
  { bucket with tokens := bucket.tokens - cost }

section Window

variable {𝕜 : Type} [LinearOrder 𝕜]

/-- How many of the times lie in a closed window. -/
def within (a b : 𝕜) (times : List 𝕜) : ℕ := times.countP fun time ↦ a ≤ time ∧ time ≤ b

theorem within_snoc (a b : 𝕜) (times : List 𝕜) (time : 𝕜) :
    within a b (times ++ [time]) = within a b times + if a ≤ time ∧ time ≤ b then 1 else 0 := by
  simp [within, List.countP_append, List.countP_singleton]

theorem within_eq_zero {a b : 𝕜} {times : List 𝕜} (h : ∀ time ∈ times, time < a) :
    within a b times = 0 := by
  rw [within, List.countP_eq_zero]
  intro time htime hwithin
  exact absurd (of_decide_eq_true hwithin).1 (not_le.mpr (h time htime))

/-- Times are not counted twice as long as none is later than the end of the window. -/
theorem within_of_le {a b later : 𝕜} {times : List 𝕜} (h : ∀ time ∈ times, time ≤ b)
    (hlater : b ≤ later) : within a later times = within a b times := by
  apply List.countP_congr
  intro time htime
  have hle := h time htime
  simp only [decide_eq_true_eq, hle, hle.trans hlater]

end Window

/-- The bucket, told from the times at which a token was taken. -/
structure Tells (capacity rate : 𝕜) (taken : List 𝕜) (bucket : Bucket 𝕜) : Prop where
  past : ∀ time ∈ taken, time ≤ bucket.last
  nonneg : 0 ≤ bucket.tokens
  room : ∀ a ≤ bucket.last,
    bucket.tokens + within a bucket.last taken ≤ capacity + rate * (bucket.last - a)
  least : ∃ a ≤ bucket.last,
    bucket.tokens + within a bucket.last taken = capacity + rate * (bucket.last - a)
  windows : ∀ a b, a ≤ b → (within a b taken : 𝕜) ≤ capacity + rate * (b - a)

namespace Tells

variable [IsStrictOrderedRing 𝕜] {capacity rate now : 𝕜} {taken : List 𝕜} {bucket : Bucket 𝕜}

theorem full (hcapacity : 0 ≤ capacity) (hrate : 0 ≤ rate) (now : 𝕜) :
    Tells capacity rate [] (full capacity now) where
  past := fun _ htime ↦ absurd htime List.not_mem_nil
  nonneg := hcapacity
  room := by
    intro a ha
    have hadded := mul_nonneg hrate (sub_nonneg.mpr ha)
    simpa [TokenBucket.full, within] using hadded
  least := ⟨now, le_rfl, by simp [TokenBucket.full, within]⟩
  windows := by
    intro a b hab
    have hadded := mul_nonneg hrate (sub_nonneg.mpr hab)
    simpa [within] using add_nonneg hcapacity hadded

theorem tokens_le (h : Tells capacity rate taken bucket) : bucket.tokens ≤ capacity := by
  have hroom := h.room bucket.last le_rfl
  rw [sub_self, mul_zero, add_zero] at hroom
  exact (le_add_of_nonneg_right (Nat.cast_nonneg _)).trans hroom

theorem refill (h : Tells capacity rate taken bucket) (hcapacity : 0 ≤ capacity)
    (hrate : 0 ≤ rate) (hnow : bucket.last ≤ now) :
    Tells capacity rate taken (refill capacity rate bucket now) where
  past := fun time htime ↦ (h.past time htime).trans hnow
  nonneg := by
    have hadded := mul_nonneg (sub_nonneg.mpr hnow) hrate
    exact le_min hcapacity (add_nonneg h.nonneg hadded)
  room := by
    intro a ha
    simp only [TokenBucket.refill] at ha ⊢
    by_cases hbefore : a ≤ bucket.last
    · have hroom := h.room a hbefore
      have hmin := min_le_right capacity (bucket.tokens + (now - bucket.last) * rate)
      rw [within_of_le h.past hnow]
      linarith
    · have hnone : within a now taken = 0 :=
        within_eq_zero fun time htime ↦ (h.past time htime).trans_lt (not_le.mp hbefore)
      have hmin := min_le_left capacity (bucket.tokens + (now - bucket.last) * rate)
      have hadded := mul_nonneg hrate (sub_nonneg.mpr ha)
      rw [hnone, Nat.cast_zero]
      linarith
  least := by
    obtain ⟨a, ha, hleast⟩ := h.least
    simp only [TokenBucket.refill]
    obtain hle | hover := le_total (bucket.tokens + (now - bucket.last) * rate) capacity
    · refine ⟨a, ha.trans hnow, ?_⟩
      rw [min_eq_right hle, within_of_le h.past hnow]
      linarith
    · obtain rfl | hlater := hnow.eq_or_lt
      · -- no time went by, so the bucket was full before
        rw [sub_self, zero_mul, add_zero] at hover ⊢
        exact ⟨a, ha, by rwa [min_eq_right h.tokens_le]⟩
      · have hnone : within now now taken = 0 :=
          within_eq_zero fun time htime ↦ (h.past time htime).trans_lt hlater
        refine ⟨now, le_rfl, ?_⟩
        rw [min_eq_left hover, hnone, Nat.cast_zero, sub_self, mul_zero]
  windows := h.windows

theorem take (h : Tells capacity rate taken bucket) (hrate : 0 ≤ rate)
    (htokens : 1 ≤ bucket.tokens) :
    Tells capacity rate (taken ++ [bucket.last]) (take bucket 1) where
  past := by
    rw [List.forall_mem_append, List.forall_mem_singleton]
    exact ⟨h.past, le_rfl⟩
  nonneg := sub_nonneg.mpr htokens
  room := by
    intro a ha
    have hroom := h.room a ha
    simp only [TokenBucket.take] at ha ⊢
    rw [within_snoc, if_pos ⟨ha, le_rfl⟩, Nat.cast_add, Nat.cast_one]
    linarith
  least := by
    obtain ⟨a, ha, hleast⟩ := h.least
    refine ⟨a, ha, ?_⟩
    simp only [TokenBucket.take]
    rw [within_snoc, if_pos ⟨ha, le_rfl⟩, Nat.cast_add, Nat.cast_one]
    linarith
  windows := by
    intro a b hab
    rw [within_snoc]
    split
    case isTrue hwithin =>
      have hroom := h.room a hwithin.1
      have hsame := within_of_le (a := a) h.past hwithin.2
      have hadded := mul_le_mul_of_nonneg_left (sub_le_sub_right hwithin.2 a) hrate
      rw [hsame, Nat.cast_add, Nat.cast_one]
      linarith
    case isFalse => exact h.windows a b hab

/-- Less than a token is left exactly if another one would be too much for some window. -/
theorem lacks_iff (h : Tells capacity rate taken bucket) :
    bucket.tokens < 1 ↔
      ∃ a ≤ bucket.last,
        capacity + rate * (bucket.last - a) < within a bucket.last taken + 1 := by
  constructor
  · intro hlacks
    obtain ⟨a, ha, hleast⟩ := h.least
    exact ⟨a, ha, by linarith⟩
  · rintro ⟨a, ha, hover⟩
    have hroom := h.room a ha
    linarith

end Tells

end TokenBucket
