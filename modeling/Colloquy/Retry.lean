import Colloquy.Act
import Colloquy.Duration

/-!
# Colloquy — retrying

An operation whose error may pass by itself can be tried again after a wait. The wait
is what the error asks for, or else a backoff that grows from attempt to attempt and
is varied at random by up to a quarter. By default there is one attempt.
-/

namespace Colloquy

/-- How acts wait: by sleeping, and by a random number below `2 ^ 16`. -/
structure Clock (σ : Type) where
  sleep : Duration → Act σ Unit
  random : Act σ Nat

structure RetryPolicy where
  /-- How often the operation is tried in all; none counts as one. -/
  maxAttempts : Nat := 1
  initialBackoff : Duration := .ofMillis 500
  maxBackoff : Duration := .ofSecs 30
  multiplier : Binary64 := .ofNat 2
  deriving DecidableEq, Repr, Inhabited

namespace RetryPolicy

/-- Try up to `n` times. -/
def withAttempts (n : Nat) : RetryPolicy :=
  { maxAttempts := max n 1 }

def withBackoff (policy : RetryPolicy) (initial most : Duration) : RetryPolicy :=
  { policy with initialBackoff := initial, maxBackoff := most }

/-- More than one attempt is made. -/
def isEnabled (policy : RetryPolicy) : Bool :=
  1 < policy.maxAttempts

/-- How many attempts are made. -/
def attempts (policy : RetryPolicy) : Nat :=
  max policy.maxAttempts 1

/-- The factor from three to five quarters that a random number below `2 ^ 16` stands for. -/
def jitterFactor (random : Nat) : Binary64 :=
  let share := (Binary64.ofNat random).div (Binary64.ofNat 65536)
  (Binary64.nearest false 3 4).add (share.mul (Binary64.nearest false 1 2))

/-- The backoff after a wait with this backoff. -/
def nextBackoff (policy : RetryPolicy) (backoff : Duration) : Except Failure Duration := do
  return (← backoff.scale policy.multiplier).shorter policy.maxBackoff

variable {σ α : Type}

/-- How long to wait after an error. -/
def delayAfter (clock : Clock σ) (e : Error) (backoff : Duration) : Act σ Duration :=
  match e with
  | .rateLimited (some ms) => pure (.ofMillis ms)
  | _ => do Act.ofFailable (backoff.scale (jitterFactor (← clock.random)))

/-- Try an operation with so many further attempts, and this backoff before the next of them. -/
def tryAgain (policy : RetryPolicy) (clock : Clock σ) (operation : Act σ α) :
    Nat → Duration → Act σ α
  | 0, _ => operation
  | further + 1, backoff => do
    match ← Act.attempt operation with
    | .ok value => return value
    | .error e =>
      if e.isRetryable then do
        clock.sleep (← delayAfter clock e backoff)
        let next ← Act.ofFailable (policy.nextBackoff backoff)
        tryAgain policy clock operation further next
      else Act.fail e

/-- Try an operation as often as the policy allows, while its errors are worth another attempt. -/
def execute (policy : RetryPolicy) (clock : Clock σ) (operation : Act σ α) : Act σ α :=
  policy.tryAgain clock operation (policy.attempts - 1) policy.initialBackoff

end RetryPolicy

end Colloquy
