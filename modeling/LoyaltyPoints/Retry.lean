import LoyaltyPoints.Time.Duration

/-! # Retries with exponential backoff

    A call is repeated while it fails with an error that the caller holds to be passing, up to a
    number of retries. The wait before the retry with number `n` is `initial · multiplier ^ n`,
    computed in floating-point seconds, and never more than the longest wait. -/

namespace LoyaltyPoints

/-- How often and after which waits a call is repeated. -/
structure RetryPolicy where
  /-- The number of retries; the first call is not one. -/
  maxRetries : UInt32
  initialDelay : Duration
  maxDelay : Duration
  multiplier : Binary64
deriving DecidableEq, Repr

namespace RetryPolicy

/-- The exponents of a power are signed numbers of 32 bits. -/
def maxPower : Nat := Nat.pow 2 31 - 1

/-- The wait before the retry with this number. A wait that is no length of time is the longest. -/
def backoff (p : RetryPolicy) (retry : UInt32) : Duration :=
  let factor := p.multiplier.pow (Nat.min retry.toNat maxPower)
  match Duration.ofSeconds? (p.initialDelay.toSeconds.mul factor) with
  | some d => d.min p.maxDelay
  | none => p.maxDelay

end RetryPolicy

namespace Retry

/-- What a repeated call did. -/
structure Run (ε α : Type) where
  /-- The failures that were followed by another attempt, and the waits before it. -/
  retried : List (ε × Duration)
  /-- The outcome of the last attempt. -/
  result : Except ε α

/-- The attempts from retry number `retry` on; `outcome` gives the outcome of each attempt. -/
def runFrom {ε α : Type} (policy : RetryPolicy) (retryable : ε → Bool)
    (outcome : Nat → Except ε α) (retry : UInt32) : Run ε α :=
  match outcome retry.toNat with
  | .ok x => ⟨[], .ok x⟩
  | .error e =>
    if retryable e = true ∧ retry < policy.maxRetries then
      let rest := runFrom policy retryable outcome (retry + 1)
      ⟨(e, policy.backoff retry) :: rest.retried, rest.result⟩
    else ⟨[], .error e⟩
termination_by policy.maxRetries.toNat - retry.toNat
decreasing_by
  rename_i h
  have hlt : retry.toNat < policy.maxRetries.toNat := UInt32.lt_iff_toNat_lt.mp h.2
  have hmax := policy.maxRetries.toNat_lt
  have : (retry + 1).toNat = retry.toNat + 1 := by
    rw [UInt32.toNat_add]; simp; omega
  omega

/-- All attempts of a call. -/
def run {ε α : Type} (policy : RetryPolicy) (retryable : ε → Bool)
    (outcome : Nat → Except ε α) : Run ε α :=
  runFrom policy retryable outcome 0

namespace Run

variable {ε α : Type}

/-- The waits between the attempts. -/
def waits (r : Run ε α) : List Duration := r.retried.map (·.2)

/-- The number of attempts. -/
def calls (r : Run ε α) : Nat := r.retried.length + 1

/-- The millisecond of each attempt, the first one at `start`. -/
def callTimes (r : Run ε α) (start : Nat) : List Nat :=
  go start r.waits
where
  go (t : Nat) : List Duration → List Nat
    | [] => [t]
    | d :: ds => t :: go (t + d.sleepMillis) ds

end Run

end Retry

end LoyaltyPoints
