import Mathlib.Data.Int.Notation
import CredMesh.Foundation.Execution

/-!
# Timelocks

A value that is changed in two moves: what is to come is proposed first and adopted later, when it
has waited for a delay that is fixed for good. A new proposal replaces the one that waits, and what
is adopted is used up. So what waits is always the last move, and an adoption comes right after the
proposal that it adopts.
-/

/-- What is in force, and what may replace it from a time on. -/
structure Timelock (θ : Type) where
  delay : ℤ
  inForce : θ
  waiting : Option (θ × ℤ)

namespace Timelock

open Execution

variable {θ : Type}

inductive Move (θ : Type)
  | create (delay : ℤ) (value : θ)
  | propose (value : θ) (time : ℤ)
  | adopt (time : ℤ)

/-- A timelock is created once; it may be proposed to at any time. -/
def step : Move θ → Option (Timelock θ) → Except Unit (Option (Timelock θ))
  | .create delay value, none => .ok (some ⟨delay, value, none⟩)
  | .propose value time, some lock =>
      .ok (some { lock with waiting := some (value, time + lock.delay) })
  | .adopt time, some ⟨delay, _, some (value, ready)⟩ =>
      if ready ≤ time then .ok (some ⟨delay, value, none⟩) else .error ()
  | _, _ => .error ()

theorem step_propose {value : θ} {time : ℤ} {state next : Option (Timelock θ)} :
    step (.propose value time) state = .ok next ↔
      ∃ lock, state = some lock ∧
        next = some { lock with waiting := some (value, time + lock.delay) } := by
  cases state with
  | none => simp [step]
  | some lock => simp [step, @eq_comm _ next]

theorem step_adopt {time : ℤ} {state next : Option (Timelock θ)} :
    step (.adopt time) state = .ok next ↔
      ∃ delay old value ready, state = some ⟨delay, old, some (value, ready)⟩ ∧ ready ≤ time ∧
        next = some ⟨delay, value, none⟩ := by
  match state with
  | none => simp [step]
  | some ⟨delay, old, none⟩ => simp [step]
  | some ⟨delay, old, some (value, ready)⟩ =>
      by_cases htime : ready ≤ time
      · simp [step, htime, @eq_comm _ next]
      · simp [step, htime]

/-- What waits was proposed by the last move, and its time is the delay after that. -/
theorem waiting_iff {moves : List (Move θ)} {lock : Timelock θ}
    (hrun : run step none moves = .ok (some lock)) (value : θ) (ready : ℤ) :
    lock.waiting = some (value, ready) ↔
      ∃ earlier time, moves = earlier ++ [.propose value time] ∧ ready = time + lock.delay := by
  obtain rfl | ⟨earlier, last, rfl⟩ := List.eq_nil_or_concat moves
  · cases hrun
  · rw [List.concat_eq_append] at hrun ⊢
    obtain ⟨state, -, hlast⟩ := run_snoc.mp hrun
    cases last with
    | create delay initial =>
        cases state with
        | none =>
            obtain rfl := Option.some.inj (Except.ok.inj hlast)
            simp
        | some before => cases hlast
    | propose proposed time =>
        obtain ⟨before, -, hnext⟩ := step_propose.mp hlast
        obtain rfl := Option.some.inj hnext
        simp only [Option.some.injEq, Prod.mk.injEq, List.append_singleton_inj, Move.propose.injEq]
        constructor
        · rintro ⟨rfl, rfl⟩
          exact ⟨earlier, time, ⟨rfl, rfl, rfl⟩, rfl⟩
        · rintro ⟨_, _, ⟨-, rfl, rfl⟩, rfl⟩
          exact ⟨rfl, rfl⟩
    | adopt time =>
        obtain ⟨delay, old, adopted, since, -, -, hnext⟩ := step_adopt.mp hlast
        obtain rfl := Option.some.inj hnext
        simp

/-- An adoption is possible exactly right after a proposal, once the delay has passed. -/
theorem adopts_iff {moves : List (Move θ)} {lock : Timelock θ}
    (hrun : run step none moves = .ok (some lock)) (now : ℤ) (next : Option (Timelock θ)) :
    step (.adopt now) (some lock) = .ok next ↔
      ∃ earlier value time, moves = earlier ++ [.propose value time] ∧ time + lock.delay ≤ now ∧
        next = some ⟨lock.delay, value, none⟩ := by
  rw [step_adopt]
  constructor
  · rintro ⟨delay, old, value, ready, hlock, hready, hnext⟩
    obtain rfl := Option.some.inj hlock
    obtain ⟨earlier, time, hmoves, hsince⟩ := (waiting_iff hrun value ready).mp rfl
    exact ⟨earlier, value, time, hmoves, hsince ▸ hready, hnext⟩
  · rintro ⟨earlier, value, time, hmoves, hready, hnext⟩
    have hwaiting := (waiting_iff hrun value (time + lock.delay)).mpr ⟨earlier, time, hmoves, rfl⟩
    obtain ⟨delay, old, waiting⟩ := lock
    obtain rfl : waiting = some (value, time + delay) := hwaiting
    exact ⟨delay, old, value, time + delay, rfl, hready, hnext⟩

end Timelock
