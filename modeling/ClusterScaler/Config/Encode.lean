import ClusterScaler.Config.Basic

/-!
# Configurations as data

The data value of a configuration, with every setting written out.
-/

set_option autoImplicit false

namespace ClusterScaler

/-- The tunables as a value. -/
def Tunables.toJson (t : Tunables) : Json :=
  Json.object [("max_launch_batch", .nat t.maxLaunchBatch),
    ("max_concurrent_launches", .nat t.maxConcurrentLaunches),
    ("update_interval_s", .nat t.updateInterval),
    ("heartbeat_timeout_s", .nat t.heartbeatTimeout),
    ("max_num_failures", .nat t.maxFailures),
    ("failure_window_ticks", .nat t.failureWindowTicks),
    ("idle_timeout_s", .nat t.idleTimeout),
    ("update_timeout_s", .nat t.updateTimeout),
    ("target_utilization_fraction", .double t.targetUtilization),
    ("provider_max_retries", .nat t.providerMaxRetries),
    ("tick_deadline_s", .nat t.tickDeadline)]

/-- A provider as a value, tagged with its kind. -/
def ProviderConfig.toJson (p : ProviderConfig) : Json :=
  match p with
  | .pool statePath hosts externalIps =>
    Json.object [("type", .str p.kind), ("state_path", Json.optStr statePath),
      ("hosts", Json.ofTable (Json.ofList .str) hosts),
      ("external_ips", Json.ofTable .str externalIps)]
  | .inMemory autoRun => Json.object [("type", .str p.kind), ("auto_run", .bool autoRun)]

/-- The login settings as a value. -/
def AuthConfig.toJson (a : AuthConfig) : Json :=
  Json.object [("ssh_user", .str a.sshUser), ("ssh_private_key", Json.optStr a.sshPrivateKey),
    ("ssh_port", .nat a.sshPort)]

/-- The container settings as a value. -/
def DockerConfig.toJson (d : DockerConfig) : Json :=
  Json.object [("image", .str d.image), ("container_name", .str d.containerName),
    ("run_options", Json.ofList .str d.runOptions)]

/-- A resource vector as a value. -/
def Resources.toJson (r : Resources Float) : Json := Json.ofTable Json.double r.amounts

/-- A node type as a value. -/
def NodeTypeConfig.toJson (t : NodeTypeConfig) : Json :=
  Json.object [("min_workers", .nat t.minWorkers), ("max_workers", .nat t.maxWorkers),
    ("resources", t.resources.toJson), ("node_config", Json.object t.nodeConfig),
    ("file_mounts", Json.ofTable .str t.fileMounts),
    ("setup_commands", Json.ofList .str t.setupCommands),
    ("start_commands", Json.ofList .str t.startCommands)]

/-- A configuration as a value. -/
def ClusterConfig.toJson (c : ClusterConfig) : Json :=
  Json.object [("cluster_name", .str c.clusterName), ("head_node_type", .str c.headNodeType),
    ("autoscaler", c.tunables.toJson), ("provider", c.provider.toJson), ("auth", c.auth.toJson),
    ("docker", (c.docker.map DockerConfig.toJson).getD .null),
    ("file_mounts", Json.ofTable .str c.fileMounts),
    ("setup_commands", Json.ofList .str c.setupCommands),
    ("node_types", Json.ofTable NodeTypeConfig.toJson c.nodeTypes)]

end ClusterScaler
