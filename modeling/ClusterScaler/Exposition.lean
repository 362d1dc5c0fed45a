import ClusterScaler.Decimal.Layout
import ClusterScaler.Load
import ClusterScaler.Status

/-!
# Metrics exposition

The status and the usage of a cluster as metric families, and the text format in which a collector
scrapes them: per family a help line, a type line and one line per sample, with quoted labels.
-/

set_option autoImplicit false

namespace ClusterScaler.Exposition

/-- Whether a metric only grows. -/
inductive Kind where
  | counter
  | gauge
  deriving DecidableEq, Repr

/-- The word for a kind. -/
def Kind.text : Kind → String
  | counter => "counter"
  | gauge => "gauge"

/-- One measured value with its labels. -/
structure Sample where
  labels : List (String × String)
  value : String
  deriving DecidableEq, Repr

/-- The samples of one metric. -/
structure Family where
  name : String
  help : String
  kind : Kind
  samples : List Sample
  deriving DecidableEq, Repr

/-- One character of a label value. -/
def escapeChar (c : Char) : List Char :=
  if c = '\\' then ['\\', '\\']
  else if c = '"' then ['\\', '"']
  else if c = '\n' then ['\\', 'n']
  else [c]

/-- A label value inside its quotes. -/
def escape (s : String) : String := String.ofList (s.toList.flatMap escapeChar)

/-- A label as `name="value"`. -/
def labelText (l : String × String) : String := l.1 ++ "=\"" ++ escape l.2 ++ "\""

/-- The line of a sample. -/
def Sample.line (name : String) (s : Sample) : String :=
  name ++ "\x7b" ++ String.intercalate "," (s.labels.map labelText) ++ "\x7d " ++ s.value

/-- The lines of a family. -/
def Family.lines (f : Family) : List String :=
  ["# HELP " ++ f.name ++ " " ++ f.help, "# TYPE " ++ f.name ++ " " ++ f.kind.text]
    ++ f.samples.map (Sample.line f.name)

/-- The text of the families, every line ended by a line feed. -/
def render (fs : List Family) : String :=
  String.join ((fs.flatMap Family.lines).map (· ++ "\n"))

/-- A natural number as text. -/
def count (n : Nat) : String := String.ofList (Decimal.digits n)

/-- A family with one sample for the whole cluster. -/
def single (cluster name help : String) (kind : Kind) (value : String) : Family :=
  ⟨name, help, kind, [⟨[("cluster", cluster)], value⟩]⟩

/-- A gauge with one sample per entry of a table, labelled by its key. -/
def keyed {α : Type} (cluster name help label : String) (text : α → String)
    (t : List (String × α)) : Family :=
  ⟨name, help, .gauge, t.map (fun e => ⟨[("cluster", cluster), (label, e.1)], text e.2⟩)⟩

/-- The metrics of a cluster: counts as whole numbers, gauges with four places, resource amounts
with two. -/
def families (status : ClusterStatus) (usage : ResourceUsage Float) : List Family :=
  let cluster := status.clusterName
  let gauge (name help : String) (x : Float) : Family :=
    single cluster name help .gauge (Decimal.fixed 4 x)
  let counter (name help : String) (n : Nat) : Family :=
    single cluster name help .counter (count n)
  [keyed cluster "fleetscale_nodes" "Live nodes by node type." "node_type" count
      status.nodesByType.entries,
    keyed cluster "fleetscale_target_nodes" "Target node count computed by the last tick."
      "node_type" count ((status.lastTick.map (·.targets.entries)).getD []),
    counter "fleetscale_ticks_total" "Control loop ticks run." status.ticks,
    counter "fleetscale_nodes_launched_total" "Nodes requested from the provider."
      status.launchedTotal,
    counter "fleetscale_nodes_terminated_total" "Nodes terminated by the autoscaler."
      status.terminatedTotal,
    counter "fleetscale_update_failures_total" "Node updates that failed or timed out."
      status.updateFailuresTotal,
    counter "fleetscale_provider_failures_total"
      "Launch and terminate failures counted by the breaker." status.breaker.totalFailures,
    gauge "fleetscale_updaters_in_flight" "Node updaters currently running."
      status.updatersInFlight.toFloat,
    gauge "fleetscale_breaker_tripped" "1 when launches are halted by the failure breaker."
      (if status.breaker.tripped then 1.0 else 0.0),
    gauge "fleetscale_breaker_failures_in_window" "Provider failures inside the breaker window."
      status.breaker.failuresInWindow.toFloat,
    gauge "fleetscale_utilization_fraction"
      "Mean node utilization over nodes with a fresh heartbeat." usage.utilizationFraction,
    keyed cluster "fleetscale_resource_used" "Resources in use." "resource" (Decimal.fixed 2)
      usage.usedByResource.toList,
    keyed cluster "fleetscale_resource_available" "Resources free on live nodes." "resource"
      (Decimal.fixed 2) usage.availableByResource.toList]

/-- The exposition text of a cluster. -/
def ofCluster (status : ClusterStatus) (usage : ResourceUsage Float) : String :=
  render (families status usage)

end ClusterScaler.Exposition
