import Mathlib.Tactic.Common

/-!
# Fallible computations

Programs are embedded in `Except`. This file names the two ways in which they leave early, a
missing value and a failed requirement, and gives the inversion rules with which a successful
computation is taken apart one statement at a time.
-/

namespace Outcome

variable {ε α β : Type}

/-- Continue with the value of an option, or fail with the given error. -/
def okOr (value : Option α) (error : ε) : Except ε α :=
  match value with
  | some result => .ok result
  | none => .error error

/-- Continue only if the condition holds. -/
def require (condition : Prop) [Decidable condition] (error : ε) : Except ε Unit :=
  if condition then .ok () else .error error

@[simp]
theorem okOr_eq_ok {value : Option α} {error : ε} {result : α} :
    okOr value error = .ok result ↔ value = some result := by
  cases value <;> simp [okOr]

@[simp]
theorem require_eq_ok {condition : Prop} [Decidable condition] {error : ε} {result : Unit} :
    require condition error = .ok result ↔ condition := by
  by_cases h : condition <;> simp [require, h]

/-- A sequenced computation succeeds exactly when both of its parts do. -/
theorem bind_eq_ok {first : Except ε α} {next : α → Except ε β} {result : β} :
    first >>= next = .ok result ↔ ∃ value, first = .ok value ∧ next value = .ok result := by
  cases first <;> simp [bind, Except.bind]

@[simp]
theorem ok_bind (value : α) (next : α → Except ε β) : (Except.ok value >>= next) = next value :=
  rfl

/-- A requirement that is met can be dropped. -/
theorem require_of {condition : Prop} [Decidable condition] (h : condition) (error : ε) :
    require condition error = .ok () :=
  if_pos h

theorem pure_eq_ok {value result : α} :
    (pure value : Except ε α) = .ok result ↔ value = result := by
  simp [pure, Except.pure]

/-- Whether a sequenced computation succeeds at all is decided one part after the other. -/
theorem exists_bind_eq_ok {first : Except ε α} {next : α → Except ε β} :
    (∃ result, first >>= next = .ok result) ↔
      ∃ value, first = .ok value ∧ ∃ result, next value = .ok result := by
  cases first <;> simp [bind, Except.bind]

@[simp]
theorem exists_pure_eq_ok {value : α} : ∃ result, (pure value : Except ε α) = .ok result :=
  ⟨value, rfl⟩

/-- A branch that may be skipped succeeds when the taken side does. -/
theorem ite_eq_ok {condition : Prop} [Decidable condition] {yes no : Except ε α} {result : α} :
    (if condition then yes else no) = .ok result ↔
      (condition ∧ yes = .ok result) ∨ (¬ condition ∧ no = .ok result) := by
  by_cases h : condition <;> simp [h]

/-- Translating the error of a callee does not change when it succeeds. -/
@[simp]
theorem mapError_eq_ok {ε' : Type} {translate : ε → ε'} {callee : Except ε α} {result : α} :
    callee.mapError translate = .ok result ↔ callee = .ok result := by
  cases callee <;> simp [Except.mapError]

/-! Translating the errors of a program translates those of its statements. -/

variable {ε' : Type} (translate : ε → ε')

theorem mapError_bind (first : Except ε α) (next : α → Except ε β) :
    (first >>= next).mapError translate =
      first.mapError translate >>= fun value ↦ (next value).mapError translate := by
  cases first <;> rfl

theorem mapError_okOr (value : Option α) (error : ε) :
    (okOr value error).mapError translate = okOr value (translate error) := by
  cases value <;> rfl

theorem mapError_require (condition : Prop) [Decidable condition] (error : ε) :
    (require condition error).mapError translate = require condition (translate error) := by
  by_cases h : condition <;> simp [require, h, Except.mapError]

theorem mapError_pure (value : α) :
    (pure value : Except ε α).mapError translate = pure value :=
  rfl

/-- What follows a requirement matters only where it is met. -/
theorem require_bind_congr {condition : Prop} [Decidable condition] {error : ε}
    {next next' : Unit → Except ε α} (h : condition → next () = next' ()) :
    require condition error >>= next = require condition error >>= next' := by
  by_cases hcondition : condition
  · rw [require_of hcondition, ok_bind, ok_bind, h hcondition]
  · rw [require, if_neg hcondition]
    rfl

theorem okOr_bind_congr {value : Option α} {error : ε} {next next' : α → Except ε β}
    (h : ∀ result, value = some result → next result = next' result) :
    okOr value error >>= next = okOr value error >>= next' := by
  cases value with
  | none => rfl
  | some result => exact h result rfl

end Outcome
