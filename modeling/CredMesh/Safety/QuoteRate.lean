import Mathlib.Data.Set.Finite.Lattice
import CredMesh.Bridge.RateLimiter

/-!
# The rate of quotes

What a bucket holds is the least room that a window up to now leaves to its key. From this follow
the bound of every window and the exact condition on which a call is refused. The buckets of other
keys do not come into it.
-/

namespace CredMesh.Bridge

open EcmaScript TokenBucket

namespace Answered

variable {capacity rate : ℚ} {calls : List Call}

theorem accepted_next (state : Answered) (call : Call) (key : JsString) :
    (state.next call).accepted key = state.accepted key ++
      if (state.limiter.refilled call.now call.key).tokens < 1 ∨ call.key ≠ key then []
      else [call.now] := by
  rw [accepted, next, List.filter_append, List.map_append, RateLimiter.consume_answer, accepted]
  apply congrArg
  by_cases hlacks : (state.limiter.refilled call.now call.key).tokens < 1
  · rw [if_pos (.inl hlacks), decide_eq_true hlacks]
    simp
  · rw [decide_eq_false hlacks]
    by_cases hkey : call.key = key
    · rw [if_neg (not_or.mpr ⟨hlacks, not_not.mpr hkey⟩)]
      simp [hkey]
    · rw [if_pos (.inr hkey)]
      simp [hkey]

theorem refilled_next_self (state : Answered) (call : Call) (now : ℚ) :
    (state.next call).limiter.refilled now call.key =
      refill state.limiter.capacity state.limiter.refillPerSecond
        (if (state.limiter.refilled call.now call.key).tokens < 1
          then state.limiter.refilled call.now call.key
          else take (state.limiter.refilled call.now call.key) 1) now := by
  simp only [next, RateLimiter.refilled, RateLimiter.consume_capacity,
    RateLimiter.consume_refillPerSecond, RateLimiter.consume_self, Option.getD_some]

theorem refilled_next_other (state : Answered) (call : Call) (now : ℚ) {key : JsString}
    (hkey : key ≠ call.key) :
    (state.next call).limiter.refilled now key = state.limiter.refilled now key := by
  have hlookup := state.limiter.consume_other call.now 1 hkey
  simp only [next, RateLimiter.refilled, RateLimiter.consume_capacity,
    RateLimiter.consume_refillPerSecond, hlookup]

/-- At any time from the last call on, every bucket is told by the calls accepted for its key. -/
theorem run_tells (hcapacity : 0 ≤ capacity) (hrate : 0 ≤ rate)
    (hsorted : calls.Pairwise fun earlier later ↦ earlier.now ≤ later.now) (key : JsString)
    {now : ℚ} (hnow : ∀ call ∈ calls, call.now ≤ now) :
    Tells capacity rate ((run capacity rate calls).accepted key)
      ((run capacity rate calls).limiter.refilled now key) := by
  induction calls using List.reverseRecOn generalizing now with
  | nil => exact (Tells.full hcapacity hrate now).refill hcapacity hrate le_rfl
  | append_singleton calls call ih =>
      obtain ⟨hearlier, -, hlast⟩ := List.pairwise_append.mp hsorted
      obtain ⟨hbefore, hcall⟩ := List.forall_mem_append.mp hnow
      have hcall := hcall call (List.mem_singleton_self call)
      rw [run_snoc, accepted_next]
      by_cases hkey : call.key = key
      · subst hkey
        have hcurrent := ih hearlier fun earlier hmem ↦
          hlast earlier hmem call (List.mem_singleton_self call)
        rw [refilled_next_self, run_capacity, run_refillPerSecond]
        by_cases hlacks :
            ((run capacity rate calls).limiter.refilled call.now call.key).tokens < 1
        · rw [if_pos hlacks, if_pos (.inl hlacks), List.append_nil]
          exact hcurrent.refill hcapacity hrate hcall
        · rw [if_neg hlacks, if_neg (not_or.mpr ⟨hlacks, not_not.mpr rfl⟩)]
          exact (hcurrent.take hrate (not_lt.mp hlacks)).refill hcapacity hrate hcall
      · rw [refilled_next_other _ _ _ (Ne.symm hkey), if_pos (.inr hkey), List.append_nil]
        exact ih hearlier hbefore

/-- No window holds more accepted calls than its bound. -/
theorem run_within_le (hcapacity : 0 ≤ capacity) (hrate : 0 ≤ rate)
    (hsorted : calls.Pairwise fun earlier later ↦ earlier.now ≤ later.now) (key : JsString)
    {a b : ℚ} (hab : a ≤ b) :
    (within a b ((run capacity rate calls).accepted key) : ℚ) ≤ capacity + rate * (b - a) := by
  obtain ⟨now, hnow⟩ := ((calls.map Call.now).finite_toSet).bddAbove
  exact (run_tells hcapacity hrate hsorted key
    fun call hcall ↦ hnow (List.mem_map_of_mem hcall)).windows a b hab

/-- The calls for a key see the same bucket and get the same answers as if there were no others. -/
theorem run_filter (capacity rate : ℚ) (calls : List Call) (key : JsString) :
    (run capacity rate calls).answers.filter (fun answer ↦ answer.1.key = key) =
        (run capacity rate (calls.filter fun call ↦ call.key = key)).answers ∧
    (run capacity rate calls).limiter.buckets.lookup key =
      (run capacity rate (calls.filter fun call ↦ call.key = key)).limiter.buckets.lookup key := by
  induction calls using List.reverseRecOn with
  | nil => exact ⟨rfl, rfl⟩
  | append_singleton calls call ih =>
      obtain ⟨hanswers, hlookup⟩ := ih
      rw [run_snoc, List.filter_append]
      by_cases hkey : call.key = key
      · subst hkey
        have hrefilled : ∀ now, (run capacity rate calls).limiter.refilled now call.key =
            (run capacity rate (calls.filter fun other ↦ other.key = call.key)).limiter.refilled
              now call.key := by
          intro now
          simp only [RateLimiter.refilled, run_capacity, run_refillPerSecond, hlookup]
        have hsingle : [call].filter (fun other ↦ other.key = call.key) = [call] := by simp
        rw [hsingle, run_snoc]
        constructor
        · simp [next, RateLimiter.consume_answer, hrefilled, hanswers]
        · simp only [next, RateLimiter.consume_self, hrefilled]
      · have hnone : [call].filter (fun other ↦ other.key = key) = [] := by simp [hkey]
        rw [hnone, List.append_nil, ← hanswers, ← hlookup]
        constructor
        · simp [next, hkey]
        · exact RateLimiter.consume_other _ _ _ (Ne.symm hkey)

end Answered

open Answered

/-- In every closed interval the limiter accepts at most `capacity + rate * length` calls for a key.
It refuses a call exactly if less than one token is left after the refill, which is exactly if with
this call some interval up to it would hold too many. And the answers to the calls for a key are
those it would give if there were no calls for other keys. -/
theorem quote_rate_bounded {capacity rate : ℚ} (hcapacity : 0 ≤ capacity) (hrate : 0 ≤ rate)
    {calls : List Call}
    (hsorted : calls.Pairwise fun earlier later ↦ earlier.now ≤ later.now) (key : JsString) :
    (∀ a b, a ≤ b → (within a b ((run capacity rate calls).accepted key) : ℚ) ≤
      capacity + rate * (b - a)) ∧
    (∀ part call, part ++ [call] <+: calls →
      (((run capacity rate part).limiter.consume call.now call.key 1).1 = false ↔
        ((run capacity rate part).limiter.refilled call.now call.key).tokens < 1) ∧
      (((run capacity rate part).limiter.consume call.now call.key 1).1 = false ↔
        ∃ a ≤ call.now, capacity + rate * (call.now - a) <
          within a call.now ((run capacity rate part).accepted call.key) + 1)) ∧
    (run capacity rate calls).answers.filter (fun answer ↦ answer.1.key = key) =
      (run capacity rate (calls.filter fun call ↦ call.key = key)).answers := by
  refine ⟨fun a b hab ↦ run_within_le hcapacity hrate hsorted key hab, ?_,
    (run_filter capacity rate calls key).1⟩
  intro part call hpart
  obtain ⟨hearlier, -, hlast⟩ := List.pairwise_append.mp (hsorted.sublist hpart.sublist)
  have htells := run_tells hcapacity hrate hearlier call.key fun earlier hmem ↦
    hlast earlier hmem call (List.mem_singleton_self call)
  rw [RateLimiter.consume_answer, Bool.not_eq_false', decide_eq_true_iff]
  exact ⟨Iff.rfl, htells.lacks_iff⟩

/-- A burst of two, one more a second. -/
theorem quote_rate_bounded_burst :
    (within 0 1 ((run 2 1 [⟨0, []⟩, ⟨0, []⟩, ⟨1 / 2, []⟩, ⟨1, []⟩]).accepted []) : ℚ) ≤
      2 + 1 * (1 - 0) :=
  (@quote_rate_bounded 2 1 (by norm_num) (by norm_num)
    [⟨0, []⟩, ⟨0, []⟩, ⟨1 / 2, []⟩, ⟨1, []⟩] (by norm_num [List.pairwise_cons]) []).1
    0 1 (by norm_num)

/-- Requests that get through share a bucket exactly if they carry the same token. -/
theorem rateKey_eq_some {tokens : List JsString} {request : QuoteCall} {key : JsString} :
    rateKey (some tokens) request = some key ↔
      ∃ token ∈ tokens, token ≠ [] ∧ request.authorization = some (bearer ++ token) ∧
        key = tokenKey token := by
  simp only [rateKey, Option.map_eq_some_iff, Option.filter_eq_some_iff, decide_eq_true_eq]
  constructor
  · rintro ⟨token, ⟨⟨auth, ⟨hauth, hbearer⟩, hdrop⟩, hne, hmem⟩, hkey⟩
    obtain ⟨rest, hrest⟩ := List.isPrefixOf_iff_prefix.mp hbearer
    have htoken : rest = token := by
      rw [← hdrop, ← hrest]
      rfl
    exact ⟨token, hmem, hne, by rw [hauth, ← hrest, htoken], hkey.symm⟩
  · rintro ⟨token, hmem, hne, hauth, hkey⟩
    have hbearer := List.isPrefixOf_iff_prefix.mpr (List.prefix_append bearer token)
    exact ⟨token, ⟨⟨_, ⟨hauth, hbearer⟩, rfl⟩, hne, hmem⟩, hkey.symm⟩

end CredMesh.Bridge
