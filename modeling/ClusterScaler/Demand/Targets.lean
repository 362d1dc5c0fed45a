import ClusterScaler.Demand.Growth

/-!
# Target node counts

A node counts toward the target of its type if it is not idle, or if it takes in demand when the
open bundles are packed onto the live and the planned nodes. What finds no room calls for further
nodes. A target is at least the type's summed utilization divided by the fraction that should be
in use, and always within the limits of the type.
-/

set_option autoImplicit false

namespace ClusterScaler

variable {α : Type} [Amount α]

/-- A live node as planning sees it. -/
structure NodeCapacity (α : Type) where
  nodeType : String
  /-- What demand can still be packed onto. -/
  available : Resources α
  /-- The largest fraction in use, if the node has reported load. -/
  utilization : Option α
  /-- Whether the node has reported no usage for longer than the idle timeout. -/
  idle : Bool

/-- The live nodes of every configured type that has any. -/
def liveCounts (types : Table String (TypeLimits α)) (nodes : List (NodeCapacity α)) :
    Table String Nat :=
  nodes.foldl
    (fun t n => if types.contains n.nodeType then t.upsert n.nodeType 0 (· + 1) else t) ∅

/-- The nodes that each type lacks to its minimum, where it lacks any. -/
def plannedCounts (types : Table String (TypeLimits α)) (counts : Table String Nat) :
    Table String Nat :=
  (types.mapValues (fun name t => t.minWorkers - countOf counts name)).filter (fun _ n => 0 < n)

/-- The nodes in packing order: busy ones first, so that demand lands on them and idle ones can
go. -/
def packingOrder (nodes : List (NodeCapacity α)) : List (NodeCapacity α) :=
  nodes.filter (fun n => !n.idle) ++ nodes.filter (·.idle)

/-- The capacities of the planned nodes. -/
def plannedCapacities (types : Table String (TypeLimits α)) (planned : Table String Nat) :
    List (Resources α) :=
  types.entries.flatMap (fun (name, t) => List.replicate (countOf planned name) t.resources)

/-- What planning found out about a demand. -/
structure DemandPlan (α : Type) where
  planned : Table String Nat
  additions : Table String Nat
  /-- The live nodes in packing order, and whether each took in demand. -/
  absorbed : List (NodeCapacity α × Bool)

/-- Pack a demand onto the live and the planned nodes and add nodes for the rest. -/
def planDemand (types : Table String (TypeLimits α)) (nodes : List (NodeCapacity α))
    (demand : Demand α) : DemandPlan α :=
  let counts := liveCounts types nodes
  let planned := plannedCounts types counts
  let ordered := packingOrder nodes
  let packing := pack (ordered.map (·.available) ++ plannedCapacities types planned)
    (demand.filter (fun b => !b.isZero))
  let known := planned.entries.foldl (fun t e => t.upsert e.1 0 (· + e.2)) counts
  { planned
    additions := newInstances types known packing.residual
    absorbed := ordered.zip packing.used }

/-- The nodes of a type that are busy or took in demand. -/
def DemandPlan.needed (p : DemandPlan α) (name : String) : Nat :=
  p.absorbed.countP (fun (n, took) => n.nodeType == name && (!n.idle || took))

/-- The nodes a type should have for its utilization to be the wanted fraction. -/
def idealCount (nodes : List (NodeCapacity α)) (fraction : α) (name : String) : Nat :=
  let used := (nodes.filter (·.nodeType == name)).foldl
    (fun sum n => sum + n.utilization.getD Amount.zero) Amount.zero
  Amount.ceil (used / fraction)

/-- The target of a type. -/
def DemandPlan.target (p : DemandPlan α) (nodes : List (NodeCapacity α)) (fraction : α)
    (name : String) (limits : TypeLimits α) : Nat :=
  let wanted := p.needed name + countOf p.planned name + countOf p.additions name
  min (max (max wanted (idealCount nodes fraction name)) limits.minWorkers) limits.maxWorkers

/-- The target node count of every configured type. -/
def computeTargets (types : Table String (TypeLimits α)) (nodes : List (NodeCapacity α))
    (demand : Demand α) (fraction : α) : Table String Nat :=
  let plan := planDemand types nodes demand
  types.mapValues (plan.target nodes fraction)

end ClusterScaler
