import ClusterScaler.Files.Tree
import ClusterScaler.Text.Quoted

/-!
# Configuration errors

Why a configuration was not accepted.
-/

set_option autoImplicit false

namespace ClusterScaler

/-- A rule that a configuration breaks. -/
inductive ConfigFault where
  | emptyClusterName
  | noNodeTypes
  | unknownHeadType (name : String)
  | minExceedsMax (nodeType : String) (minWorkers maxWorkers : Nat)
  | negativeAmount (nodeType : String)
  | zeroLaunchBatch
  | zeroConcurrentLaunches
  | targetUtilizationOutOfRange
  | zeroFailureWindow
  | zeroInterval
  | hostsOfUnknownType (nodeType : String)
  | tooFewHosts (nodeType : String) (maxWorkers available : Nat)
  | missingMountSource (remote source : String)
  deriving DecidableEq, Repr

/-- A natural number as text. -/
def natText (n : Nat) : String := String.ofList (Nat.toDigits 10 n)

/-- The rule in words. -/
def ConfigFault.message : ConfigFault → String
  | .emptyClusterName => "cluster_name must not be empty"
  | .noNodeTypes => "at least one node type is required"
  | .unknownHeadType name =>
    "head_node_type " ++ Text.quoted name ++ " is not a configured node type"
  | .minExceedsMax nodeType minWorkers maxWorkers =>
    "node type " ++ nodeType ++ ": min_workers (" ++ natText minWorkers
      ++ ") exceeds max_workers (" ++ natText maxWorkers ++ ")"
  | .negativeAmount nodeType => "node type " ++ nodeType ++ ": negative resource amount"
  | .zeroLaunchBatch => "max_launch_batch must be at least 1"
  | .zeroConcurrentLaunches => "max_concurrent_launches must be at least 1"
  | .targetUtilizationOutOfRange => "target_utilization_fraction must be in (0, 1]"
  | .zeroFailureWindow => "failure_window_ticks must be at least 1"
  | .zeroInterval => "update_interval_s and tick_deadline_s must be at least 1"
  | .hostsOfUnknownType nodeType =>
    "static provider lists hosts for unknown node type " ++ Text.quoted nodeType
  | .tooFewHosts nodeType maxWorkers available =>
    "node type " ++ nodeType ++ ": max_workers (" ++ natText maxWorkers ++ ") exceeds its "
      ++ natText available ++ " static hosts"
  | .missingMountSource remote source =>
    "file mount " ++ Text.quoted remote ++ ": source " ++ source ++ " does not exist"

/-- Why a configuration could not be loaded. -/
inductive ConfigError where
  | unreadable (path : String) (error : FileError)
  /-- The text is not TOML, or not that of a configuration. -/
  | malformed
  | invalid (fault : ConfigFault)
  | badOverride (name value : String)
  deriving DecidableEq, Repr

/-- What the message of a malformed text starts with. -/
def ConfigError.malformedText : String := "invalid config syntax"

/-- The message of a configuration error. What is wrong with a malformed text is not told. -/
def ConfigError.message : ConfigError → String
  | .unreadable path error => "failed to read config " ++ path ++ ": " ++ error.message
  | .malformed => malformedText
  | .invalid fault => "invalid config: " ++ fault.message
  | .badOverride name value => "invalid value for " ++ name ++ ": " ++ Text.quoted value

end ClusterScaler
