import ClusterScaler.Provider.Request

/-!
# Retries

A call that failed with a transient error is repeated after a pause. The pauses double from one
attempt to the next up to a longest pause, and the number of retries is limited.
-/

set_option autoImplicit false

namespace ClusterScaler

/-- How often and after which pauses a call is repeated. -/
structure RetryPolicy where
  maxRetries : Nat := 5
  baseDelay : Duration := .ofMillis 200
  maxDelay : Duration := .ofSeconds 10
  deriving DecidableEq, Inhabited

namespace RetryPolicy

/-- The factor on the base delay before a retry: it doubles with every attempt and saturates at
the largest 32-bit number. -/
def factor (attempt : Nat) : Nat :=
  if attempt - 1 < 32 then Nat.pow 2 (attempt - 1) else Nat.pow 2 32 - 1

/-- The pause before the retry with this number, counted from one. -/
def delayFor (p : RetryPolicy) (attempt : Nat) : Duration :=
  let product := p.baseDelay.nanos * factor attempt
  if product ≤ Duration.maximum.nanos then Duration.min ⟨product⟩ p.maxDelay else p.maxDelay

variable {m : Type → Type} [Monad m] {α : Type}

/-- Repeat an operation, with so many retries left. -/
def attempts (p : RetryPolicy) (pause : Duration → m Unit) (operation : m (ProviderResult α)) :
    Nat → m (ProviderResult α)
  | 0 => operation
  | left + 1 => do
    match ← operation with
    | .ok a => return .ok a
    | .error e =>
      if e.isTransient then
        pause (p.delayFor (p.maxRetries - left))
        p.attempts pause operation left
      else return .error e

/-- Repeat an operation until it succeeds, fails for good, or the retries are used up. -/
def withRetries (p : RetryPolicy) (pause : Duration → m Unit)
    (operation : m (ProviderResult α)) : m (ProviderResult α) :=
  p.attempts pause operation p.maxRetries

end RetryPolicy

/-- Pause for a time. -/
def Routine.pause (d : Duration) : Routine Unit := Program.call (Request.pause d)

/-- Repeat a request under a policy. -/
def Routine.retrying {α : Type} (p : RetryPolicy) (operation : Routine (ProviderResult α)) :
    Routine (ProviderResult α) :=
  p.withRetries Routine.pause operation

end ClusterScaler
