/-!
# Failure breaker

Counts the failures of provider calls over a window of ticks and halts launches once there are too
many. A successful launch clears the window; once tripped, only an operator's reset helps.
-/

set_option autoImplicit false

namespace ClusterScaler

/-- A failure breaker. -/
structure Breaker where
  maxFailures : Nat
  windowTicks : Nat
  /-- The tick of every failure still inside the window, oldest first. -/
  failures : List Nat
  currentTick : Nat
  tripped : Bool
  totalFailures : Nat
  deriving DecidableEq, Repr

/-- What a breaker shows of itself. -/
structure Breaker.State where
  tripped : Bool
  failuresInWindow : Nat
  maxFailures : Nat
  windowTicks : Nat
  totalFailures : Nat
  deriving DecidableEq, Repr, Inhabited

namespace Breaker

/-- A fresh breaker. A window holds at least one tick. -/
def new (maxFailures windowTicks : Nat) : Breaker :=
  ⟨maxFailures, max windowTicks 1, [], 0, false, 0⟩

/-- Age the window to `tick`. -/
def advance (b : Breaker) (tick : Nat) : Breaker :=
  let current := max b.currentTick tick
  { b with
    currentTick := current
    failures := b.failures.dropWhile (· ≤ current - b.windowTicks) }

/-- Count one failure at `tick`, and tell whether it tripped the breaker. -/
def recordFailure (b : Breaker) (tick : Nat) : Breaker × Bool :=
  let b := b.advance tick
  let failures := b.failures ++ [tick]
  let trips := !b.tripped && b.maxFailures ≤ failures.length
  ({ b with failures, totalFailures := b.totalFailures + 1, tripped := b.tripped || trips }, trips)

/-- A successful launch clears the window, unless the breaker has tripped. -/
def recordSuccess (b : Breaker) : Breaker :=
  if b.tripped then b else { b with failures := [] }

/-- An operator's reset. -/
def reset (b : Breaker) : Breaker := { b with tripped := false, failures := [] }

/-- Apply new limits. A tripped breaker stays tripped. -/
def setLimits (b : Breaker) (maxFailures windowTicks : Nat) : Breaker :=
  { b with maxFailures, windowTicks := max windowTicks 1 }.advance b.currentTick

/-- What the breaker shows of itself. -/
def state (b : Breaker) : State :=
  ⟨b.tripped, b.failures.length, b.maxFailures, b.windowTicks, b.totalFailures⟩

end Breaker

end ClusterScaler
