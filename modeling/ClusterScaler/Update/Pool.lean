import ClusterScaler.Update.Steps

/-!
# The updater pool

The updaters in flight, at most one for a node. An updater stays in the pool until its result is
taken out, or until it has overrun its deadline and is abandoned. The pool is a value: that an
updater has come to its end is told to it.
-/

set_option autoImplicit false

namespace ClusterScaler

/-- How an updater ended by itself. -/
inductive UpdaterEnd where
  | finished (result : UpdateResult)
  /-- It broke down. -/
  | panicked

/-- The result that an end stands for. -/
def UpdaterEnd.result : UpdaterEnd → UpdateResult
  | finished result => result
  | panicked => .error .aborted

/-- An updater in flight. -/
structure UpdaterSlot where
  nodeType : String
  /-- When it was dispatched. -/
  started : Duration
  /-- How long it may be in flight. -/
  deadline : Duration
  /-- Its end, once it has come. -/
  ended : Option UpdaterEnd := none

/-- What became of a dispatched updater. -/
structure UpdateOutcome where
  node : NodeId
  nodeType : String
  result : UpdateResult
  /-- How long it was in flight. -/
  elapsed : Duration

namespace UpdaterSlot

/-- How long an updater has been in flight. -/
def elapsed (s : UpdaterSlot) (time : Duration) : Duration :=
  ⟨time.nanos - s.started.nanos⟩

/-- Whether an updater is past its deadline. -/
def isOverdue (s : UpdaterSlot) (time : Duration) : Bool :=
  s.deadline.nanos < (s.elapsed time).nanos

/-- Whether an updater is to be taken out at a time. -/
def isDue (s : UpdaterSlot) (time : Duration) : Bool :=
  s.ended.isSome || s.isOverdue time

/-- What is reported of an updater that is taken out: its own result, or that it overran. -/
def outcome (s : UpdaterSlot) (node : NodeId) (time : Duration) : UpdateOutcome :=
  let result := match s.ended with
    | some ended => ended.result
    | none => .error (.timeout (s.elapsed time))
  ⟨node, s.nodeType, result, s.elapsed time⟩

end UpdaterSlot

/-- The updaters in flight. -/
structure UpdaterPool where
  slots : Table NodeId UpdaterSlot := ∅
  /-- How long an updater may overrun its own timeout. -/
  grace : Duration := .ofSeconds 30

namespace UpdaterPool

/-- Whether an updater of a node is in flight. -/
def isUpdating (p : UpdaterPool) (node : NodeId) : Bool := p.slots.contains node

/-- The number of updaters in flight. -/
def inFlight (p : UpdaterPool) : Nat := p.slots.size

/-- Whether an updater might be in flight for longer than can be told. -/
def outlasts (p : UpdaterPool) (u : Update) : Bool :=
  Duration.maximum.nanos < u.timeout.nanos + p.grace.nanos

/-- Accept an updater at a time, unless one of the same node is in flight. -/
def dispatch? (p : UpdaterPool) (u : Update) (time : Duration) : Option UpdaterPool :=
  if p.isUpdating u.request.node then none
  else
    some { p with
      slots := p.slots.insert u.request.node
        { nodeType := u.request.nodeType
          started := time
          deadline := ⟨u.timeout.nanos + p.grace.nanos⟩ } }

/-- Take note of the end of an updater. -/
def complete (p : UpdaterPool) (node : NodeId) (ended : UpdaterEnd) : UpdaterPool :=
  match p.slots.get? node with
  | some slot => { p with slots := p.slots.insert node { slot with ended := some ended } }
  | none => p

/-- Take note of the ends of updaters. -/
def completeAll (p : UpdaterPool) (ends : List (NodeId × UpdaterEnd)) : UpdaterPool :=
  ends.foldl (fun p e => p.complete e.1 e.2) p

/-- The updaters that are past their deadline at a time without having ended. -/
def overdue (p : UpdaterPool) (time : Duration) : List NodeId :=
  (p.slots.filter (fun _ s => s.ended.isNone && s.isOverdue time)).keys

/-- Take out the updaters that have ended and those past their deadline. -/
def collect (p : UpdaterPool) (time : Duration) : List UpdateOutcome × UpdaterPool :=
  ((p.slots.filter (fun _ s => s.isDue time)).entries.map
      (fun (node, s) => s.outcome node time),
    { p with slots := p.slots.filter (fun _ s => !s.isDue time) })

/-- Take out all updaters, once every one has ended. -/
def drain (p : UpdaterPool) (time : Duration) : List UpdateOutcome × UpdaterPool :=
  (p.slots.entries.filterMap
      (fun (node, s) => s.ended.map (fun e => ⟨node, s.nodeType, e.result, s.elapsed time⟩)),
    { p with slots := ∅ })

/-- Forget all updaters. -/
def abortAll (p : UpdaterPool) : UpdaterPool := { p with slots := ∅ }

end UpdaterPool

end ClusterScaler
