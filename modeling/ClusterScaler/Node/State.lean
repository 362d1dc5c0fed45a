/-!
# Node states

Where a node stands in its life, as the control loop sees it, and the steps from one state to the
next that are expected.
-/

set_option autoImplicit false

namespace ClusterScaler

/-- The state of a node. -/
inductive NodeState where
  | pending
  | runningUnconfigured
  | updating
  | ready
  | terminating
  | removed
  deriving DecidableEq, Repr, Inhabited

namespace NodeState

/-- The name of a state. -/
def text : NodeState → String
  | pending => "pending"
  | runningUnconfigured => "running-unconfigured"
  | updating => "updating"
  | ready => "ready"
  | terminating => "terminating"
  | removed => "removed"

/-- All states. -/
def all : List NodeState := [pending, runningUnconfigured, updating, ready, terminating, removed]

/-- The state of a name. -/
def ofText? (s : String) : Option NodeState := all.find? (·.text == s)

/-- Whether a node is expected to move from one state to the next. Every state but the last may
move to `terminating`; nothing leaves `removed`. -/
def canMoveTo : NodeState → NodeState → Bool
  | removed, _ => false
  | s, terminating => s != terminating
  | terminating, removed => true
  | pending, runningUnconfigured => true
  | pending, ready => true
  | runningUnconfigured, ready => true
  | runningUnconfigured, updating => true
  | ready, updating => true
  | updating, ready => true
  | updating, runningUnconfigured => true
  | s, t => s == t

end NodeState

end ClusterScaler
