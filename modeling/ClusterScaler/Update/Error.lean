import ClusterScaler.Duration
import ClusterScaler.Provider.Error

/-!
# Update errors

Why a node could not be brought up to date. Such a node is replaced and never updated again.
-/

set_option autoImplicit false

namespace ClusterScaler

/-- Why an update failed. -/
inductive UpdateError where
  | timeout (after : Duration)
  | commandFailed (command : String) (exitCode : Option Int) (stderr : String)
  | syncFailed (target : String) (source : RunnerError)
  | runner (error : RunnerError)
  | nodeTerminated
  /-- The updater itself broke down. -/
  | aborted
  | provider (error : ProviderError)
  deriving DecidableEq, Repr

/-- The message of an update error. -/
def UpdateError.message : UpdateError → String
  | .timeout after => "update timed out after " ++ after.text
  | .commandFailed command exitCode stderr =>
    "command " ++ Text.quoted command ++ " exited with " ++ exitCodeText exitCode ++ ": " ++ stderr
  | .syncFailed target source => "failed to sync " ++ target ++ ": " ++ source.message
  | .runner error => "remote exec failed: " ++ error.message
  | .nodeTerminated => "node terminated before it became ready"
  | .aborted => "updater task aborted"
  | .provider error => error.message

/-- The result of an update. -/
abbrev UpdateResult := Except UpdateError Unit

end ClusterScaler
