import ClusterScaler.Node.Basic
import ClusterScaler.Resources

/-!
# Load records

The latest heartbeat of every node, and the sum over the nodes that are still heard from. A node is
stale once it has been silent for longer than the heartbeat timeout; its record then counts for
nothing in the sums.
-/

set_option autoImplicit false

namespace ClusterScaler

/-- The latest report of a node. -/
structure NodeLoad (α : Type) where
  used : Resources α
  available : Resources α
  lastHeartbeat : Nat
  /-- The last heartbeat that reported a usage other than zero. -/
  lastUsed : Nat

/-- The usage of a cluster over the nodes that are not stale. -/
structure ResourceUsage (α : Type) where
  /-- `nodesUsed / nodeCount`, zero without nodes. -/
  utilizationFraction : α
  /-- The sum of the nodes' utilizations. -/
  nodesUsed : α
  nodeCount : Nat
  usedByResource : Resources α
  availableByResource : Resources α

/-- The load records of a cluster. -/
structure LoadStore (α : Type) where
  records : Table NodeId (NodeLoad α)
  heartbeatTimeout : Nat

variable {α : Type} [Amount α]

namespace NodeLoad

/-- Everything the node has, used or not. -/
def total (l : NodeLoad α) : Resources α := l.used.add l.available

/-- The largest fraction in use among the node's resources. -/
def utilization (l : NodeLoad α) : α := l.used.maxFractionOf l.total

/-- The record of a node that has only just been seen. -/
def seeded (now : Nat) : NodeLoad α := ⟨∅, ∅, now, now⟩

end NodeLoad

namespace LoadStore

/-- A store without records. -/
def new (heartbeatTimeout : Nat) : LoadStore α := ⟨∅, heartbeatTimeout⟩

/-- The record of a node. -/
def get? (s : LoadStore α) (id : NodeId) : Option (NodeLoad α) := s.records.get? id

/-- The number of records. -/
def size (s : LoadStore α) : Nat := s.records.size

/-- Take in a heartbeat, and tell whether it was accepted: a report older than the last one is
dropped. -/
def recordHeartbeat (s : LoadStore α) (id : NodeId) (used available : Resources α) (now : Nat) :
    LoadStore α × Bool :=
  match s.get? id with
  | none => ({ s with records := s.records.insert id ⟨used, available, now, now⟩ }, true)
  | some l =>
    if now < l.lastHeartbeat then (s, false)
    else
      let lastUsed := if used.isZero then l.lastUsed else now
      ({ s with records := s.records.insert id ⟨used, available, now, lastUsed⟩ }, true)

/-- Start the heartbeat clock of a node that has no record yet. -/
def markActive (s : LoadStore α) (id : NodeId) (now : Nat) : LoadStore α :=
  match s.get? id with
  | none => { s with records := s.records.insert id (NodeLoad.seeded now) }
  | some _ => s

/-- The nodes whose last heartbeat lies before `time`. -/
def lastHeardBefore (s : LoadStore α) (time : Nat) : List NodeId :=
  (s.records.filter (fun _ l => l.lastHeartbeat < time)).keys

/-- The nodes that have been silent for longer than the timeout. -/
def staleNodes (s : LoadStore α) (now : Nat) : List NodeId :=
  s.lastHeardBefore (now - s.heartbeatTimeout)

/-- Whether a node has been silent for longer than the timeout. -/
def isStale (s : LoadStore α) (id : NodeId) (now : Nat) : Bool :=
  match s.get? id with
  | none => false
  | some l => s.heartbeatTimeout < now - l.lastHeartbeat

/-- How long a node has reported no usage, if it has a record. -/
def idleFor (s : LoadStore α) (id : NodeId) (now : Nat) : Option Nat :=
  (s.get? id).map (fun l => now - l.lastUsed)

/-- The usage without any node. -/
def noUsage : ResourceUsage α := ⟨Amount.zero, Amount.zero, 0, ∅, ∅⟩

/-- Count one more node. -/
def addUsage (u : ResourceUsage α) (l : NodeLoad α) : ResourceUsage α :=
  { u with
    nodesUsed := u.nodesUsed + l.utilization
    nodeCount := u.nodeCount + 1
    usedByResource := u.usedByResource.add l.used
    availableByResource := u.availableByResource.add l.available }

/-- The usage over the nodes that are not stale. -/
def usage (s : LoadStore α) (now : Nat) : ResourceUsage α :=
  let fresh := s.records.entries.filter (fun e => !s.isStale e.1 now)
  let u := fresh.foldl (fun u e => addUsage u e.2) noUsage
  if 0 < u.nodeCount then
    { u with utilizationFraction := u.nodesUsed / Amount.ofNat u.nodeCount }
  else u

/-- Drop the records of nodes that are not in `live`, and tell how many. -/
def prune (s : LoadStore α) (live : List NodeId) : LoadStore α × Nat :=
  let kept := s.records.filter (fun id _ => live.contains id)
  ({ s with records := kept }, s.records.size - kept.size)

/-- Drop the record of a node. -/
def remove (s : LoadStore α) (id : NodeId) : LoadStore α :=
  { s with records := s.records.erase id }

/-- Change the heartbeat timeout. -/
def setHeartbeatTimeout (s : LoadStore α) (timeout : Nat) : LoadStore α :=
  { s with heartbeatTimeout := timeout }

end LoadStore

end ClusterScaler
