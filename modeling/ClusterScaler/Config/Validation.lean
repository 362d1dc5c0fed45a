import ClusterScaler.Config.Basic
import ClusterScaler.Config.Error
import ClusterScaler.Text.Blank

/-!
# Checking configurations

The rules that every accepted configuration keeps, in the order in which they are checked. The
first rule that is broken is the one reported.
-/

set_option autoImplicit false

namespace ClusterScaler

/-- Report a fault unless a rule is kept. -/
def require (kept : Bool) (fault : ConfigFault) : Except ConfigFault Unit :=
  if kept then .ok () else .error fault

/-- The limits and the capacity of a node type. -/
def NodeTypeConfig.check (name : String) (t : NodeTypeConfig) : Except ConfigFault Unit := do
  require (t.minWorkers ≤ t.maxWorkers) (.minExceedsMax name t.minWorkers t.maxWorkers)
  require (!t.resources.toList.any (fun e => e.2 < 0.0)) (.negativeAmount name)

/-- The tunables. -/
def Tunables.check (t : Tunables) : Except ConfigFault Unit := do
  require (t.maxLaunchBatch != 0) .zeroLaunchBatch
  require (t.maxConcurrentLaunches != 0) .zeroConcurrentLaunches
  require (0.0 < t.targetUtilization && t.targetUtilization ≤ 1.0) .targetUtilizationOutOfRange
  require (t.failureWindowTicks != 0) .zeroFailureWindow
  require (t.updateInterval != 0 && t.tickDeadline != 0) .zeroInterval

/-- The hosts of a fixed pool: only configured types have hosts, and every type has as many as it
may use. -/
def checkHosts (types : Table String NodeTypeConfig) (hosts : Table String (List String)) :
    Except ConfigFault Unit := do
  hosts.keys.forM (fun name => require (types.contains name) (.hostsOfUnknownType name))
  types.entries.forM (fun (name, t) =>
    let available := ((hosts.get? name).map List.length).getD 0
    require (t.maxWorkers ≤ available) (.tooFewHosts name t.maxWorkers available))

/-- The sources of all mounts. -/
def ClusterConfig.checkMounts (c : ClusterConfig) (files : FileStore) :
    Except ConfigFault Unit :=
  c.nodeTypes.keys.forM (fun name =>
    (c.fileMountsFor name).entries.forM (fun (remote, source) =>
      require (files.exists source) (.missingMountSource remote source)))

/-- Check a configuration against all rules. -/
def ClusterConfig.validate (c : ClusterConfig) (files : FileStore) : Except ConfigFault Unit := do
  require (!(Text.trim c.clusterName).isEmpty) .emptyClusterName
  require (!c.nodeTypes.isEmpty) .noNodeTypes
  require (c.nodeTypes.contains c.headNodeType) (.unknownHeadType c.headNodeType)
  c.nodeTypes.entries.forM (fun (name, t) => t.check name)
  c.tunables.check
  match c.provider with
  | .pool _ hosts _ => checkHosts c.nodeTypes hosts
  | .inMemory _ => pure ()
  c.checkMounts files

end ClusterScaler
