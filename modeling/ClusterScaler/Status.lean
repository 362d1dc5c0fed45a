import ClusterScaler.Breaker
import ClusterScaler.Node.Basic
import ClusterScaler.Node.State

/-!
# Status reports

What the control loop publishes after every tick.
-/

set_option autoImplicit false

namespace ClusterScaler

/-- One node in a status report. -/
structure NodeView where
  id : NodeId
  nodeType : String
  state : NodeState
  /-- Seconds since the last heartbeat, if the node has a load record. -/
  heartbeatAge : Option Nat
  deriving DecidableEq, Repr

/-- What one tick did. -/
structure TickSummary where
  tick : Nat
  startedAt : Nat
  nodes : Nat
  targets : Table String Nat
  launched : Nat
  terminated : Nat
  updatersDispatched : Nat
  updatesSucceeded : Nat
  updatesFailed : Nat
  providerFailures : Nat
  launchesBlocked : Bool
  deriving DecidableEq

/-- A tick that did nothing yet. -/
def TickSummary.start (tick startedAt : Nat) : TickSummary :=
  ⟨tick, startedAt, 0, ∅, 0, 0, 0, 0, 0, 0, false⟩

/-- The published state of a cluster. -/
structure ClusterStatus where
  clusterName : String
  ticks : Nat
  nodesByType : Table String Nat
  nodes : List NodeView
  updatersInFlight : Nat
  launchedTotal : Nat
  terminatedTotal : Nat
  updateFailuresTotal : Nat
  breaker : Breaker.State
  lastTick : Option TickSummary
  lastError : Option String
  deriving DecidableEq

/-- The status before the first tick. -/
def ClusterStatus.initial (clusterName : String) (breaker : Breaker.State) : ClusterStatus :=
  ⟨clusterName, 0, ∅, [], 0, 0, 0, 0, breaker, none, none⟩

end ClusterScaler
