import Mathlib.Data.Finmap
import Mathlib.Algebra.BigOperators.Group.Multiset.Defs

/-!
# Finite account maps and their totals

A store of accounts is a finite map. `total` adds a weight over all stored accounts; it is the
abstract meaning of a counter that the program keeps beside the store. The rules below say how a
total moves when an account is opened, rewritten or closed.
-/

/-- Accounts of type `ν`, stored under keys of type `κ`. -/
abbrev AccountMap (κ ν : Type) := Finmap fun _ : κ ↦ ν

namespace AccountMap

variable {κ ν : Type} [DecidableEq κ]

/-- The sum of a weight over all stored accounts. -/
def total (weight : κ → ν → ℕ) (accounts : AccountMap κ ν) : ℕ :=
  (accounts.entries.map fun entry ↦ weight entry.1 entry.2).sum

variable {weight : κ → ν → ℕ} {accounts : AccountMap κ ν} {key : κ} {old new : ν}

omit [DecidableEq κ] in
@[simp]
theorem total_empty : total weight (∅ : AccountMap κ ν) = 0 := rfl

theorem lookup_insert_eq (other : κ) :
    (accounts.insert key new).lookup other =
      if other = key then some new else accounts.lookup other := by
  by_cases h : other = key
  · subst h
    simp
  · simp [h, Finmap.lookup_insert_of_ne]

theorem lookup_erase_eq (other : κ) :
    (accounts.erase key).lookup other = if other = key then none else accounts.lookup other := by
  by_cases h : other = key
  · subst h
    simp
  · simp [h, Finmap.lookup_erase_ne]

theorem insert_erase_self :
    (Finmap.erase key accounts).insert key new = accounts.insert key new := by
  apply Finmap.ext_lookup
  intro other
  simp only [lookup_insert_eq, lookup_erase_eq]
  split <;> rfl

theorem insert_lookup_self (found : accounts.lookup key = some old) :
    accounts.insert key old = accounts := by
  apply Finmap.ext_lookup
  intro other
  rw [lookup_insert_eq]
  split
  case isTrue h => rw [h, found]
  case isFalse h => rfl

/-- Keep the accounts that pass a test. -/
def filter (keep : κ → ν → Bool) (accounts : AccountMap κ ν) : AccountMap κ ν where
  entries := accounts.entries.filter fun entry ↦ keep entry.1 entry.2
  nodupKeys := by
    obtain ⟨entries, hnodup⟩ := accounts
    induction entries using Quotient.inductionOn with
    | h entries => exact List.NodupKeys.sublist List.filter_sublist hnodup

theorem lookup_filter (keep : κ → ν → Bool) (other : κ) :
    (filter keep accounts).lookup other = (accounts.lookup other).filter (keep other) := by
  ext value
  rw [Finmap.lookup_eq_some_iff, Option.filter_eq_some_iff, Finmap.lookup_eq_some_iff, filter,
    Multiset.mem_filter]

variable (weight)

/-- Opening an account adds its weight. -/
theorem total_insert_fresh (new : ν) (fresh : accounts.lookup key = none) :
    total weight (accounts.insert key new) = weight key new + total weight accounts := by
  unfold total
  rw [Finmap.entries_insert_of_notMem (Finmap.lookup_eq_none.mp fresh), Multiset.map_cons,
    Multiset.sum_cons]

/-- Closing an account removes its weight. -/
theorem total_erase (found : accounts.lookup key = some old) :
    total weight (accounts.erase key) + weight key old = total weight accounts := by
  have h := total_insert_fresh weight old (Finmap.lookup_erase key accounts)
  rw [insert_erase_self, insert_lookup_self found] at h
  omega

/-- Rewriting an account exchanges its weight. -/
theorem total_insert (new : ν) (found : accounts.lookup key = some old) :
    total weight (accounts.insert key new) + weight key old =
      total weight accounts + weight key new := by
  have hfresh := total_insert_fresh weight new (Finmap.lookup_erase key accounts)
  have herase := total_erase weight found
  rw [insert_erase_self] at hfresh
  omega

theorem weight_le_total (found : accounts.lookup key = some old) :
    weight key old ≤ total weight accounts := by
  have h := total_erase weight found
  omega

end AccountMap
