import ClusterScaler.Config.Encode
import ClusterScaler.Load
import ClusterScaler.Status

/-!
# Status reports as data

The data values of what the interface reports: the status of the cluster and the load on it.
-/

set_option autoImplicit false

namespace ClusterScaler

/-- A natural number or null. -/
def Json.optNat : Option Nat → Json
  | none => .null
  | some n => .nat n

/-- A node as a value. -/
def NodeView.toJson (v : NodeView) : Json :=
  Json.object [("node_id", .str v.id.text), ("node_type", .str v.nodeType),
    ("state", .str v.state.text), ("heartbeat_age_s", Json.optNat v.heartbeatAge)]

/-- The state of a breaker as a value. -/
def Breaker.State.toJson (s : Breaker.State) : Json :=
  Json.object [("tripped", .bool s.tripped), ("failures_in_window", .nat s.failuresInWindow),
    ("max_num_failures", .nat s.maxFailures), ("window_ticks", .nat s.windowTicks),
    ("total_failures", .nat s.totalFailures)]

/-- The summary of a tick as a value. -/
def TickSummary.toJson (s : TickSummary) : Json :=
  Json.object [("tick", .nat s.tick), ("started_at", .nat s.startedAt), ("nodes", .nat s.nodes),
    ("targets", Json.ofTable .nat s.targets), ("launched", .nat s.launched),
    ("terminated", .nat s.terminated), ("updaters_dispatched", .nat s.updatersDispatched),
    ("updates_succeeded", .nat s.updatesSucceeded), ("updates_failed", .nat s.updatesFailed),
    ("provider_failures", .nat s.providerFailures),
    ("launches_blocked", .bool s.launchesBlocked)]

/-- A status as a value. -/
def ClusterStatus.toJson (s : ClusterStatus) : Json :=
  Json.object [("cluster_name", .str s.clusterName), ("ticks", .nat s.ticks),
    ("nodes_by_type", Json.ofTable .nat s.nodesByType),
    ("nodes", Json.ofList NodeView.toJson s.nodes),
    ("updaters_in_flight", .nat s.updatersInFlight), ("launched_total", .nat s.launchedTotal),
    ("terminated_total", .nat s.terminatedTotal),
    ("update_failures_total", .nat s.updateFailuresTotal), ("breaker", s.breaker.toJson),
    ("last_tick", (s.lastTick.map TickSummary.toJson).getD .null),
    ("last_error", Json.optStr s.lastError)]

/-- The usage of a cluster as a value. -/
def ResourceUsage.toJson (u : ResourceUsage Float) : Json :=
  Json.object [("utilization_fraction", .double u.utilizationFraction),
    ("nodes_used", .double u.nodesUsed), ("node_count", .nat u.nodeCount),
    ("used_by_resource", u.usedByResource.toJson),
    ("available_by_resource", u.availableByResource.toJson)]

end ClusterScaler
