import ClusterScaler.Provider.Retry
import ClusterScaler.Update.Error

/-!
# Updating a node

An update waits until a node runs and its shell answers, copies the mounts, runs the commands, and
writes the files hash of what it applied. It keeps the status tag of the node in step. On failure
the node is marked as failed; nothing is undone.
-/

set_option autoImplicit false

namespace ClusterScaler

/-- What to apply to a node. -/
structure UpdateRequest where
  node : NodeId
  nodeType : String
  /-- Remote destination to local source. -/
  mounts : Table String String
  commands : List String
  /-- The files hash that the node has afterwards. -/
  targetHash : ConfigHash

/-- An update with its limits. -/
structure Update where
  request : UpdateRequest
  auth : AuthConfig := {}
  /-- The bound on the whole update. -/
  timeout : Duration := .ofSeconds 300
  /-- The pause between two looks at a node that is not ready. -/
  pollInterval : Duration := .ofSeconds 5
  retry : RetryPolicy := {}

namespace Update

/-- The command that tells whether a shell answers. -/
def readyCheck : String := "uptime"

/-- A provider result as the result of an update. -/
def ofProvider {α : Type} (r : ProviderResult α) : Except UpdateError α :=
  r.mapError UpdateError.provider

/-- Go on unless a step failed. -/
def andThen {α β : Type} (step : Routine (Except UpdateError α))
    (next : α → Routine (Except UpdateError β)) : Routine (Except UpdateError β) := do
  match ← step with
  | .error e => return .error e
  | .ok a => next a

/-- A provider call of an update, repeated where that may help. -/
def calling (u : Update) {α : Type} (call : Routine (ProviderResult α)) :
    Routine (Except UpdateError α) := do
  return ofProvider (← Routine.retrying u.retry call)

/-- Write tags of the node. -/
def writeTags (u : Update) (tags : List (String × String)) : Routine UpdateResult :=
  u.calling (Request.make (.setNodeTags u.request.node (Table.ofList tags)))

/-- Write the status tag of the node. -/
def writeStatus (u : Update) (status : BootstrapStatus) : Routine UpdateResult :=
  u.writeTags [(Tags.nodeStatus, status.text)]

/-- Look at the node until it runs, at most so many times more. -/
def awaitRunning (u : Update) : (looks : Nat) → Routine UpdateResult
  | 0 => return .error (.timeout u.timeout)
  | looks + 1 =>
    andThen (u.calling (Request.make (.isTerminated u.request.node))) fun terminated =>
      if terminated then return .error .nodeTerminated
      else
        andThen (u.calling (Request.make (.isRunning u.request.node))) fun running =>
          if running then return .ok ()
          else do
            Routine.pause u.pollInterval
            u.awaitRunning looks

/-- Try the shell of the node until it answers, at most so many times more. -/
def awaitShell (u : Update) (runner : Runner) : (looks : Nat) → Routine UpdateResult
  | 0 => return .error (.timeout u.timeout)
  | looks + 1 => do
    match ← Request.make (.run runner readyCheck) with
    | .ok output =>
      if output.success then return .ok ()
      else
        Routine.pause u.pollInterval
        u.awaitShell runner looks
    | .error _ =>
      Routine.pause u.pollInterval
      u.awaitShell runner looks

/-- Copy mounts in turn, up to the first failure. -/
def syncMounts (runner : Runner) : List (String × String) → Routine UpdateResult
  | [] => return .ok ()
  | (target, source) :: rest => do
    match ← Request.make (.sync runner source target) with
    | .ok () => syncMounts runner rest
    | .error e => return .error (.syncFailed target e)

/-- Run commands in turn, up to the first failure. -/
def runCommands (runner : Runner) : List String → Routine UpdateResult
  | [] => return .ok ()
  | command :: rest => do
    match ← Request.make (.run runner command) with
    | .ok output =>
      if output.success then runCommands runner rest
      else return .error (.commandFailed command output.exitCode output.stderr)
    | .error e => return .error (.runner e)

/-- The most looks at a node that is not ready: after as many pauses the time is up, since none is
shorter than a millisecond. -/
def maxLooks (u : Update) : Nat := u.timeout.timerMillis + 1

/-- Bring the node up to date. -/
def apply (u : Update) : Routine UpdateResult :=
  andThen (u.writeStatus .waitingForNode) fun () =>
  andThen (u.awaitRunning u.maxLooks) fun () =>
  andThen (do return ofProvider (← Request.make (.commandRunner u.request.node u.auth)))
    fun runner =>
  andThen (u.awaitShell runner u.maxLooks) fun () =>
  andThen (u.writeStatus .syncingFiles) fun () =>
  andThen (syncMounts runner u.request.mounts.entries) fun () =>
  andThen (u.writeStatus .settingUp) fun () =>
  andThen (runCommands runner u.request.commands) fun () =>
  u.writeTags [(Tags.fileSync, u.request.targetHash.hex),
    (Tags.nodeStatus, BootstrapStatus.upToDate.text)]

/-- End an update with its result. A node whose update failed is marked as failed if that is
possible. -/
def conclude (u : Update) (result : UpdateResult) : Routine UpdateResult :=
  match result with
  | .ok () => return result
  | .error _ => do
    let _ ← u.writeStatus .updateFailed
    return result

end Update

end ClusterScaler
