import Mathlib.Order.Defs.LinearOrder

/-!
This module contains the retry middleware of the Go client: which answers it tries again after and
how long it pauses before it does.
-/

namespace OpenWA.Routing

def idempotentMethods : List String := ["GET", "HEAD", "OPTIONS", "PUT", "DELETE"]

def isIdempotent (method : String) : Bool := method ∈ idempotentMethods

/-- The statuses that mean the server declined the request before acting on it. -/
def backpressureStatuses : List Nat := [429, 503]

def retryableForMethod (method : String) (status : Nat) : Bool :=
  isIdempotent method || status ∈ backpressureStatuses

/-- A `time.Duration` is a signed number of nanoseconds in 64 bits. -/
abbrev Duration := Int64

structure RetryPolicy where
  maxRetries : Int
  baseDelay : Duration
  maxDelay : Duration
  retryableStatuses : Option (List Nat)

def millisecond : Duration := 1000000

def DefaultRetryPolicy : RetryPolicy where
  maxRetries := 3
  baseDelay := 200 * millisecond
  maxDelay := 5000 * millisecond
  retryableStatuses := some [429, 500, 502, 503, 504]

def RetryPolicy.retryableStatus (p : RetryPolicy) (status : Nat) : Bool :=
  status ∈ p.retryableStatuses.getD [429, 500, 502, 503, 504]

/-- The doublings that are left of the delay `d`. -/
def RetryPolicy.double (p : RetryPolicy) (d : Duration) (attempt : Nat) : Duration :=
  match attempt with
  | 0 => if p.maxDelay > 0 && d > p.maxDelay then p.maxDelay else d
  | attempt + 1 =>
    let d := d * 2
    if p.maxDelay > 0 && d ≥ p.maxDelay then p.maxDelay else p.double d attempt

def RetryPolicy.backoff (p : RetryPolicy) (attempt : Nat) : Duration :=
  p.double (if p.baseDelay ≤ 0 then 200 * millisecond else p.baseDelay) attempt

/-- What `next.RoundTrip` returned: a status, or an error, that of the caller's context or another. -/
inductive RoundTrip where
  | response (status : Nat)
  | error (cancelled : Bool)
deriving DecidableEq

def RetryPolicy.retryable (p : RetryPolicy) (method : String) (result : RoundTrip) : Bool :=
  match result with
  | .error true => false
  | .error false => isIdempotent method
  | .response status => p.retryableStatus status && retryableForMethod method status

/-- Whether the loop goes around once more after the attempt numbered `attempt`. -/
def RetryPolicy.again (p : RetryPolicy) (method : String) (attempt : Nat) (result : RoundTrip) : Bool :=
  p.retryable method result && decide ((attempt : Int) < p.maxRetries)

theorem RetryPolicy.double_le (p : RetryPolicy) (h : p.maxDelay > 0) (d : Duration) (attempt : Nat) :
    p.double d attempt ≤ p.maxDelay := by
  induction attempt generalizing d with
  | zero =>
    unfold double
    split
    . exact Int64.le_refl _
    . next hle => simpa [h, Int64.not_lt] using hle
  | succ attempt ih =>
    unfold double
    dsimp only
    split
    . exact Int64.le_refl _
    . exact ih _

/-- A cap that is set bounds the backoff before every retry, also where the doubling overflows. -/
theorem RetryPolicy.backoff_le (p : RetryPolicy) (h : p.maxDelay > 0) (attempt : Nat) :
    p.backoff attempt ≤ p.maxDelay := p.double_le h _ attempt

/-- A request that is not idempotent is only tried again when the server declined to act on it. -/
theorem RetryPolicy.declined_of_again {p : RetryPolicy} {method : String} {attempt : Nat}
    {result : RoundTrip} (hm : isIdempotent method = false) (h : p.again method attempt result = true) :
    ∃ status ∈ backpressureStatuses, result = .response status := by
  simp only [again, Bool.and_eq_true] at h
  cases result with
  | error cancelled => cases cancelled <;> simp [retryable, hm] at h
  | response status =>
    have hretryable := h.1
    simp only [retryable, retryableForMethod, hm, Bool.false_or, Bool.and_eq_true,
      decide_eq_true_eq] at hretryable
    exact ⟨status, hretryable.2, rfl⟩

theorem RetryPolicy.lt_of_again {p : RetryPolicy} {method : String} {attempt : Nat}
    {result : RoundTrip} (h : p.again method attempt result = true) : (attempt : Int) < p.maxRetries := by
  simp only [again, Bool.and_eq_true, decide_eq_true_eq] at h
  exact h.2

end OpenWA.Routing
