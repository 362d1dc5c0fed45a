import ClusterScaler.Config.Basic
import ClusterScaler.Toml.Parser

/-!
# Decoding configurations

A configuration is decoded from a data value, which a TOML text yields. Missing settings take their
defaults, settings that are not known are ignored, and a value of the wrong kind or out of range
makes the whole configuration unreadable.

A group of settings may also be written as an array of its values in their fixed order.
-/

set_option autoImplicit false

namespace ClusterScaler

namespace Decode

/-- A text. -/
def text? : Json → Option String
  | .str s => some s
  | _ => none

/-- A truth value. -/
def bool? : Json → Option Bool
  | .bool b => some b
  | _ => none

/-- A natural number of at most `bits` bits. -/
def nat? (bits : Nat) : Json → Option Nat
  | .num (.natural n) => if n < Nat.pow 2 bits then some n else none
  | _ => none

/-- A number, as the nearest double. -/
def float? : Json → Option Float
  | .num n => some n.toFloat
  | _ => none

/-- A list. -/
def list? {α : Type} (item? : Json → Option α) : Json → Option (List α)
  | .arr items => items.mapM item?
  | _ => none

/-- A table. -/
def table? {α : Type} (value? : Json → Option α) : Json → Option (Table String α)
  | .obj members => do
    let es ← members.mapM (fun (k, j) => do return (k, ← value? j))
    return Table.ofList es
  | _ => none

/-- A resource vector. -/
def resources? (j : Json) : Option (Resources Float) := (table? float? j).map Resources.mk

/-- The settings of a group, looked up by name. -/
structure Group where
  find : String → Option Json
  /-- Whether the group was written as an array, where a setting without a default must be there
  even when it is optional. -/
  positional : Bool

/-- The settings of an object, or of an array of the values of `names` in order. -/
def group? (names : List String) : Json → Option Group
  | .obj members => some ⟨fun name => (members.find? (·.1 == name)).map (·.2), false⟩
  | .arr items => some ⟨fun name => ((names.zip items).find? (·.1 == name)).map (·.2), true⟩
  | _ => none

namespace Group

variable {α : Type}

/-- A setting that must be there. -/
def required (g : Group) (name : String) (value? : Json → Option α) : Option α :=
  (g.find name).bind value?

/-- A setting with a default. -/
def withDefault (g : Group) (name : String) (value? : Json → Option α) (default : α) : Option α :=
  match g.find name with
  | none => some default
  | some j => value? j

/-- A setting that may be absent or null. -/
def optional (g : Group) (name : String) (value? : Json → Option α) : Option (Option α) :=
  match g.find name with
  | none => if g.positional then none else some none
  | some .null => some none
  | some j => (value? j).map some

end Group

mutual

/-- A value with `null` for every number that JSON cannot hold. -/
def settled : Json → Json
  | .num (.double x) => if x.isFinite then .double x else .null
  | .arr items => .arr (settledItems items)
  | .obj members => .obj (settledMembers members)
  | j => j

/-- `settled` on every item. -/
def settledItems : List Json → List Json
  | [] => []
  | j :: rest => settled j :: settledItems rest

/-- `settled` on the value of every member. -/
def settledMembers : List (String × Json) → List (String × Json)
  | [] => []
  | (k, j) :: rest => (k, settled j) :: settledMembers rest

end

/-- The members of an object, passed through. -/
def members? : Json → Option (List (String × Json))
  | .obj members => some (settledMembers members)
  | _ => none

end Decode

open Decode

/-- The tunables, starting from `base` where a setting is missing. -/
def Tunables.ofJson? (base : Tunables) (j : Json) : Option Tunables := do
  let g ← group? ["max_launch_batch", "max_concurrent_launches", "update_interval_s",
    "heartbeat_timeout_s", "max_num_failures", "failure_window_ticks", "idle_timeout_s",
    "update_timeout_s", "target_utilization_fraction", "provider_max_retries",
    "tick_deadline_s"] j
  return {
    maxLaunchBatch := ← g.withDefault "max_launch_batch" (nat? 32) base.maxLaunchBatch
    maxConcurrentLaunches :=
      ← g.withDefault "max_concurrent_launches" (nat? 32) base.maxConcurrentLaunches
    updateInterval := ← g.withDefault "update_interval_s" (nat? 64) base.updateInterval
    heartbeatTimeout := ← g.withDefault "heartbeat_timeout_s" (nat? 64) base.heartbeatTimeout
    maxFailures := ← g.withDefault "max_num_failures" (nat? 32) base.maxFailures
    failureWindowTicks :=
      ← g.withDefault "failure_window_ticks" (nat? 64) base.failureWindowTicks
    idleTimeout := ← g.withDefault "idle_timeout_s" (nat? 64) base.idleTimeout
    updateTimeout := ← g.withDefault "update_timeout_s" (nat? 64) base.updateTimeout
    targetUtilization :=
      ← g.withDefault "target_utilization_fraction" float? base.targetUtilization
    providerMaxRetries := ← g.withDefault "provider_max_retries" (nat? 32) base.providerMaxRetries
    tickDeadline := ← g.withDefault "tick_deadline_s" (nat? 64) base.tickDeadline }

/-- The login settings. -/
def AuthConfig.ofJson? (j : Json) : Option AuthConfig := do
  let g ← group? ["ssh_user", "ssh_private_key", "ssh_port"] j
  return {
    sshUser := ← g.withDefault "ssh_user" text? "root"
    sshPrivateKey := ← g.optional "ssh_private_key" text?
    sshPort := ← g.withDefault "ssh_port" (nat? 16) 22 }

/-- The container settings. -/
def DockerConfig.ofJson? (j : Json) : Option DockerConfig := do
  let g ← group? ["image", "container_name", "run_options"] j
  return {
    image := ← g.required "image" text?
    containerName := ← g.required "container_name" text?
    runOptions := ← g.withDefault "run_options" (list? text?) [] }

/-- The settings of a node type. -/
def NodeTypeConfig.ofJson? (j : Json) : Option NodeTypeConfig := do
  let g ← group? ["min_workers", "max_workers", "resources", "node_config", "file_mounts",
    "setup_commands", "start_commands"] j
  return {
    minWorkers := ← g.withDefault "min_workers" (nat? 32) 0
    maxWorkers := ← g.required "max_workers" (nat? 32)
    resources := ← g.withDefault "resources" resources? ∅
    nodeConfig := ← g.withDefault "node_config" members? []
    fileMounts := ← g.withDefault "file_mounts" (table? text?) ∅
    setupCommands := ← g.withDefault "setup_commands" (list? text?) []
    startCommands := ← g.withDefault "start_commands" (list? text?) [] }

/-- The kind of a provider and its remaining settings: a member `type`, or the first item. -/
def providerKind? : Json → Option (String × Json)
  | .obj members => do
    let kind ← ((members.find? (·.1 == "type")).map (·.2)).bind text?
    return (kind, .obj (members.filter (·.1 != "type")))
  | .arr (kind :: rest) => do return (← text? kind, .arr rest)
  | _ => none

/-- The settings of a provider. -/
def ProviderConfig.ofJson? (j : Json) : Option ProviderConfig := do
  let (kind, rest) ← providerKind? j
  match kind with
  | "static" =>
    let g ← group? ["state_path", "hosts", "external_ips"] rest
    return .pool (← g.optional "state_path" text?) (← g.required "hosts" (table? (list? text?)))
      (← g.withDefault "external_ips" (table? text?) ∅)
  | "fake" =>
    let g ← group? ["auto_run"] rest
    return .inMemory (← g.withDefault "auto_run" bool? true)
  | _ => none

/-- The configuration of a cluster. -/
def ClusterConfig.ofJson? (j : Json) : Option ClusterConfig := do
  let g ← group? ["cluster_name", "head_node_type", "autoscaler", "provider", "auth", "docker",
    "file_mounts", "setup_commands", "node_types"] j
  return {
    clusterName := ← g.required "cluster_name" text?
    headNodeType := ← g.required "head_node_type" text?
    tunables := ← g.withDefault "autoscaler" (Tunables.ofJson? {}) {}
    provider := ← g.required "provider" ProviderConfig.ofJson?
    auth := ← g.withDefault "auth" AuthConfig.ofJson? {}
    docker := ← g.optional "docker" DockerConfig.ofJson?
    fileMounts := ← g.withDefault "file_mounts" (table? text?) ∅
    setupCommands := ← g.withDefault "setup_commands" (list? text?) []
    nodeTypes := ← g.required "node_types" (table? NodeTypeConfig.ofJson?) }

/-- The configuration that a TOML text describes, not yet checked. -/
def ClusterConfig.ofToml? (text : String) : Option ClusterConfig := do
  let entries ← Toml.parse? text
  ClusterConfig.ofJson? (Json.object (Toml.entriesToJson entries))

end ClusterScaler
