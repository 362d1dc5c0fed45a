import ClusterScaler.ControlLoop.Tick
import ClusterScaler.Proofs.Planning.Candidates

/-!
# The plan of a tick

What a tick decides from the nodes that it read, taken together, and what it then carries out.
Nothing that is planned for termination has an updater in flight.
-/

set_option autoImplicit false

namespace ClusterScaler

/-- What a tick decides about the nodes that it read. -/
structure TickPlan where
  /-- The nodes that have to go whatever the demand is. -/
  forced : List NodeRecord
  /-- The other nodes, as planning sees them. -/
  healthy : List (NodeRecord × NodeCapacity Float)
  targets : Table String Nat
  /-- The healthy nodes above the targets of their types. -/
  excess : List NodeId

namespace TickPlan

/-- The nodes to terminate. -/
def doomed (p : TickPlan) : List NodeId := p.forced.map (·.id) ++ p.excess

/-- The healthy nodes that stay. -/
def remaining (p : TickPlan) : List NodeRecord :=
  (p.healthy.map (·.1)).filter (!p.excess.contains ·.id)

end TickPlan

namespace ControlLoop

/-- A loop before its first tick, for a cluster with a head type only. -/
def ofHeadType (t : NodeTypeConfig) : ControlLoop where
  loads := LoadStore.new 30
  status := ClusterStatus.initial "c" (Breaker.new 5 60).state
  config :=
    { clusterName := "c", headNodeType := "head", provider := .inMemory true
      nodeTypes := Table.ofList [("head", t)] }
  hashes := Table.ofList [("head", ⟨⟨"launch"⟩, ⟨"files"⟩⟩)]
  breaker := Breaker.new 5 60
  retry := {}

/-- The loop once it has taken note of the nodes that were read. -/
def takeIn (l : ControlLoop) (nodes : List NodeRecord) (now : Nat) : ControlLoop :=
  (l.observe nodes).refreshLoads nodes now

/-- The healthy nodes, as planning sees them. -/
def healthyOf (l : ControlLoop) (now : Nat) (nodes : List NodeRecord) :
    List (NodeRecord × NodeCapacity Float) :=
  (nodes.filter (fun n => (l.forcedReason now n).isNone)).map (fun n => (n, l.capacityOf now n))

/-- The targets for the healthy nodes. -/
def targetsOf (l : ControlLoop) (now : Nat) (nodes : List NodeRecord) : Table String Nat :=
  computeTargets l.config.limits ((l.healthyOf now nodes).map (·.2)) l.demand
    l.config.tunables.targetUtilization

/-- The plan for nodes of which the loop has taken note. -/
def planTick (l : ControlLoop) (now : Nat) (nodes : List NodeRecord) : TickPlan where
  forced := nodes.filter (fun n => (l.forcedReason now n).isSome)
  healthy := l.healthyOf now nodes
  targets := l.targetsOf now nodes
  excess := l.planExcess (l.healthyOf now nodes) (l.targetsOf now nodes)

end ControlLoop

/-- Carry out a plan that a loop has made. -/
def Tick.carryOut (l : ControlLoop) (now : Nat) (time : Duration) (nodes : List NodeRecord)
    (p : TickPlan) (s : TickSummary) : TickM TickSummary := do
  let (removed, s) ← Tick.terminate p.doomed s
  let departed := nodes.filter (removed.contains ·.id)
  let survivors := nodes.filter (!removed.contains ·.id)
  let s ← Tick.launchUnlessTripped (l.planLaunches p.remaining p.targets) s
  let updatable := survivors.filter (!p.doomed.contains ·.id)
  let s ← Tick.dispatchAll time updatable none updatable s
  let s := { s with nodes := survivors.length, targets := p.targets }
  modify (·.publish survivors departed l.loads now s)
  return s

/-- After the nodes have been read, a tick takes note of them, plans, and carries the plan out. -/
theorem Tick.afterReconcile_eq (now : Nat) (time : Duration) (nodes : List NodeRecord)
    (s : TickSummary) :
    Tick.afterReconcile now time nodes s = (do
      modify (·.takeIn nodes now)
      let l ← get
      Tick.carryOut l now time nodes (l.planTick now nodes) s) :=
  rfl

namespace ControlLoop

variable {l : ControlLoop} {now : Nat} {nodes : List NodeRecord}

theorem forcedReason_of_isUpdating {n : NodeRecord} (h : l.isUpdating n.id = true) :
    l.forcedReason now n = none := by
  unfold forcedReason
  rw [if_pos h]

theorem isUpdating_of_mem_excessOf {healthy : List (NodeRecord × NodeCapacity Float)}
    {nodeType : String} {target : Nat} {id : NodeId}
    (h : id ∈ l.excessOf healthy nodeType target) : l.isUpdating id = false := by
  unfold excessOf at h
  rw [List.mem_map] at h
  obtain ⟨c, hc, rfl⟩ := h
  have hsorted := List.mem_of_mem_take hc
  rw [(sortCandidates_perm _).mem_iff, List.mem_filter] at hsorted
  simpa using hsorted.2

/-- Nothing that is planned for termination has an updater in flight. -/
theorem isUpdating_of_mem_doomed {id : NodeId} (h : id ∈ (l.planTick now nodes).doomed) :
    l.isUpdating id = false := by
  unfold TickPlan.doomed at h
  rw [List.mem_append] at h
  rcases h with hforced | hexcess
  · rw [List.mem_map] at hforced
    obtain ⟨n, hn, rfl⟩ := hforced
    have hreason := (List.mem_filter.mp hn).2
    cases hupdating : l.isUpdating n.id with
    | false => rfl
    | true =>
      rw [forcedReason_of_isUpdating hupdating] at hreason
      cases hreason
  · have hplan : id ∈ l.planExcess (l.healthyOf now nodes) (l.targetsOf now nodes) := hexcess
    unfold planExcess at hplan
    rw [List.mem_flatMap] at hplan
    obtain ⟨⟨nodeType, target⟩, -, hid⟩ := hplan
    exact isUpdating_of_mem_excessOf hid

end ControlLoop

end ClusterScaler
