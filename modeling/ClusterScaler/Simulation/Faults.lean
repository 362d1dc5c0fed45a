import ClusterScaler.Simulation.World

/-!
# Scripted faults

A list of faults that the next calls of a provider method meet. A fault strikes a call before it
reaches the provider, or tampers with the list of nodes that it returns.
-/

set_option autoImplicit false

namespace ClusterScaler

/-- The provider methods that faults can be scripted for. -/
inductive Method where
  | listNodes
  | isRunning
  | isTerminated
  | nodeTags
  | setNodeTags
  | internalIp
  | createNodes
  | terminateNode
  | terminateNodes
  | commandRunner
  deriving DecidableEq, Repr

/-- The method that a request calls. -/
def Request.method? : Request → Option Method
  | listNodes _ => some .listNodes
  | isRunning _ => some .isRunning
  | isTerminated _ => some .isTerminated
  | nodeTags _ => some .nodeTags
  | setNodeTags .. => some .setNodeTags
  | internalIp _ => some .internalIp
  | createNodes .. => some .createNodes
  | terminateNode _ => some .terminateNode
  | terminateNodes _ => some .terminateNodes
  | commandRunner .. => some .commandRunner
  | externalIp _ | run .. | sync .. | pause _ => none

/-- What happens to a call. -/
inductive Fault where
  | error (e : ProviderError)
  /-- The caller breaks down. -/
  | panic
  /-- The call goes through. -/
  | pass
  /-- The first listed node is listed again. -/
  | duplicate
  /-- A node is listed that does not exist. -/
  | ghost
  deriving DecidableEq

/-- Faults to come, in order. -/
abbrev Faults := List (Method × Fault)

/-- Queue faults for a method. -/
def Faults.add (fs : Faults) (m : Method) (n : Nat) (f : Fault) : Faults :=
  fs ++ List.replicate n (m, f)

/-- Take out the next fault of a method. -/
def Faults.take (m : Method) : Faults → Option Fault × Faults
  | [] => (none, [])
  | (m', f) :: rest =>
    if m' = m then (some f, rest)
    else
      let (found, rest) := Faults.take m rest
      (found, (m', f) :: rest)

/-- Take out the next fault that a request meets. -/
def Faults.next (fs : Faults) (r : Request) : Option Fault × Faults :=
  match r.method? with
  | some m => Faults.take m fs
  | none => (none, fs)

/-- The answer to a request that fails before it reaches the provider; requests that are no
provider calls have none. -/
def Request.failed? (e : ProviderError) : (r : Request) → Option r.Reply
  | listNodes _ | isRunning _ | isTerminated _ | nodeTags _ | setNodeTags .. | internalIp _
  | externalIp _ | createNodes .. | terminateNode _ | terminateNodes _ | commandRunner .. =>
    some (.error e)
  | run .. | sync .. | pause _ => none

/-- The answer to a request after a fault has tampered with it. -/
def Fault.tamper (f : Fault) : (r : Request) → r.Reply → r.Reply
  | .listNodes _, .ok ids =>
    match f with
    | .duplicate => .ok (ids ++ ids.take 1)
    | .ghost => .ok (ids ++ [⟨"ghost-1"⟩])
    | _ => .ok ids
  | _, reply => reply

end ClusterScaler
