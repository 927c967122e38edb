import Mathlib.Algebra.Order.Ring.Rat
import CredMesh.Foundation.AccountMap
import CredMesh.Foundation.EcmaScript
import CredMesh.Foundation.TokenBucket

/-!
# The rate limiter of the bridge

A bucket of tokens for each caller, by its bearer token or else by its address. The numbers are
exact. A caller who is not authorised is turned away before the limiter is asked.
-/

namespace CredMesh.Bridge

open EcmaScript TokenBucket

structure RateLimiter where
  capacity : ℚ
  refillPerSecond : ℚ
  buckets : AccountMap JsString (Bucket ℚ)

namespace RateLimiter

def new (capacity refillPerSecond : ℚ) : RateLimiter := ⟨capacity, refillPerSecond, ∅⟩

/-- The bucket of a key with what it gained by `now`; one that is not there yet is full. -/
def refilled (limiter : RateLimiter) (now : ℚ) (key : JsString) : Bucket ℚ :=
  let b := (limiter.buckets.lookup key).getD (full limiter.capacity now)
  refill limiter.capacity limiter.refillPerSecond b now

def consume (limiter : RateLimiter) (now : ℚ) (key : JsString) (cost : ℚ) : Bool × RateLimiter :=
  let b := limiter.refilled now key
  if b.tokens < cost then
    (false, { limiter with buckets := limiter.buckets.insert key b })
  else
    (true, { limiter with buckets := limiter.buckets.insert key (take b cost) })

theorem consume_answer (limiter : RateLimiter) (now : ℚ) (key : JsString) (cost : ℚ) :
    (limiter.consume now key cost).1 = !decide ((limiter.refilled now key).tokens < cost) := by
  rw [consume]
  split
  next h => rw [decide_eq_true h, Bool.not_true]
  next h => rw [decide_eq_false h, Bool.not_false]

/-- The bucket of the key after a call is the refilled one, less the cost if it was paid. -/
theorem consume_self (limiter : RateLimiter) (now : ℚ) (key : JsString) (cost : ℚ) :
    (limiter.consume now key cost).2.buckets.lookup key =
      some (if (limiter.refilled now key).tokens < cost then limiter.refilled now key
        else take (limiter.refilled now key) cost) := by
  rw [consume]
  split <;> exact Finmap.lookup_insert _

/-- A call leaves the limiter as it was, but for the bucket of its key. -/
theorem consume_other (limiter : RateLimiter) (now cost : ℚ) {key other : JsString}
    (hother : other ≠ key) :
    (limiter.consume now key cost).2.buckets.lookup other = limiter.buckets.lookup other := by
  rw [consume]
  split <;> exact Finmap.lookup_insert_of_ne _ hother

@[simp]
theorem consume_capacity (limiter : RateLimiter) (now : ℚ) (key : JsString) (cost : ℚ) :
    (limiter.consume now key cost).2.capacity = limiter.capacity := by
  rw [consume]
  split <;> rfl

@[simp]
theorem consume_refillPerSecond (limiter : RateLimiter) (now : ℚ) (key : JsString) (cost : ℚ) :
    (limiter.consume now key cost).2.refillPerSecond = limiter.refillPerSecond := by
  rw [consume]
  split <;> rfl

end RateLimiter

/-! ## Calls over time -/

structure Call where
  now : ℚ
  key : JsString
  deriving DecidableEq

/-- The limiter with the calls it answered. -/
structure Answered where
  limiter : RateLimiter
  answers : List (Call × Bool)

namespace Answered

def next (state : Answered) (call : Call) : Answered :=
  let (answer, limiter) := state.limiter.consume call.now call.key 1
  ⟨limiter, state.answers ++ [(call, answer)]⟩

/-- The calls of a process, each with cost 1. -/
def run (capacity refillPerSecond : ℚ) (calls : List Call) : Answered :=
  calls.foldl next ⟨RateLimiter.new capacity refillPerSecond, []⟩

theorem run_snoc (capacity refillPerSecond : ℚ) (calls : List Call) (call : Call) :
    run capacity refillPerSecond (calls ++ [call]) =
      (run capacity refillPerSecond calls).next call := by
  simp [run]

@[simp]
theorem run_capacity (capacity refillPerSecond : ℚ) (calls : List Call) :
    (run capacity refillPerSecond calls).limiter.capacity = capacity := by
  induction calls using List.reverseRecOn with
  | nil => rfl
  | append_singleton calls call ih =>
      rw [run_snoc, next]
      exact (RateLimiter.consume_capacity _ _ _ _).trans ih

@[simp]
theorem run_refillPerSecond (capacity refillPerSecond : ℚ) (calls : List Call) :
    (run capacity refillPerSecond calls).limiter.refillPerSecond = refillPerSecond := by
  induction calls using List.reverseRecOn with
  | nil => rfl
  | append_singleton calls call ih =>
      rw [run_snoc, next]
      exact (RateLimiter.consume_refillPerSecond _ _ _ _).trans ih

/-- The times at which calls for a key were accepted. -/
def accepted (state : Answered) (key : JsString) : List ℚ :=
  (state.answers.filter fun answer ↦ answer.2 ∧ answer.1.key = key).map fun answer ↦ answer.1.now

end Answered

/-! ## The endpoint -/

/-- A request for a quote, as far as the endpoint looks at it before it reads the body. -/
structure QuoteCall where
  authorization : Option JsString
  remoteAddress : Option JsString
  now : ℚ

def bearer : JsString := ofChars "Bearer ".toList

def tokenKey (token : JsString) : JsString := ofChars "tok:".toList ++ token

/-- The key of a request, unless it is answered with status 401. -/
def rateKey (authTokens : Option (List JsString)) (request : QuoteCall) : Option JsString :=
  match authTokens with
  | some tokens =>
      let token := (request.authorization.filter bearer.isPrefixOf).map (·.drop 7)
      (token.filter fun token ↦ token ≠ [] ∧ token ∈ tokens).map tokenKey
  | none => some (ofChars "ip:".toList ++
      request.remoteAddress.getD (ofChars "unknown".toList))

end CredMesh.Bridge
