import ClusterScaler.Config.Decode
import ClusterScaler.Config.Validation
import ClusterScaler.Text.Utf8

/-!
# Loading configurations

From a text, a configuration is decoded and checked. From a file, environment variables override
some tunables first, and relative mount sources are taken from the directory of the file.
-/

set_option autoImplicit false

namespace ClusterScaler

/-- The natural number that a text denotes: digits with an optional plus sign, below `2 ^ bits`. -/
def readNat? (bits : Nat) (s : String) : Option Nat :=
  let ds := match s.toList with
    | '+' :: rest => rest
    | cs => cs
  if ds.isEmpty || !ds.all Char.isDigit then none
  else
    let n := Decimal.ofDigits ds
    if n < Nat.pow 2 bits then some n else none

/-- A tunable that an environment variable overrides. -/
structure Override where
  name : String
  bits : Nat
  set : Tunables → Nat → Tunables

/-- The overridable tunables, in the order in which they are applied. -/
def overrides : List Override :=
  [⟨"FLEET_MAX_NUM_FAILURES", 32, fun t n => { t with maxFailures := n }⟩,
    ⟨"FLEET_MAX_LAUNCH_BATCH", 32, fun t n => { t with maxLaunchBatch := n }⟩,
    ⟨"FLEET_MAX_CONCURRENT_LAUNCHES", 32, fun t n => { t with maxConcurrentLaunches := n }⟩,
    ⟨"FLEET_UPDATE_INTERVAL_S", 64, fun t n => { t with updateInterval := n }⟩,
    ⟨"FLEET_HEARTBEAT_TIMEOUT_S", 64, fun t n => { t with heartbeatTimeout := n }⟩]

/-- Apply overrides in turn. Of a value that cannot be read, blanks at its ends aside, the
variable is reported; those before it have been applied. -/
def applyOverrides (lookup : String → Option String) (t : Tunables) :
    List Override → Tunables × Option ConfigError
  | [] => (t, none)
  | o :: rest =>
    match lookup o.name with
    | none => applyOverrides lookup t rest
    | some value =>
      match readNat? o.bits (Text.trim value) with
      | some n => applyOverrides lookup (o.set t n) rest
      | none => (t, some (.badOverride o.name value))

/-- Apply all overrides of an environment. -/
def Tunables.override (t : Tunables) (lookup : String → Option String) :
    Tunables × Option ConfigError :=
  applyOverrides lookup t overrides

namespace ClusterConfig

/-- Take relative mount sources from a directory. -/
def resolveMounts (c : ClusterConfig) (base : String) : ClusterConfig :=
  let resolve (mounts : Table String String) := mounts.mapValues (fun _ p => Path.join base p)
  { c with
    fileMounts := resolve c.fileMounts
    nodeTypes := c.nodeTypes.mapValues (fun _ t => { t with fileMounts := resolve t.fileMounts }) }

/-- The checked configuration. -/
def checked (c : ClusterConfig) (files : FileStore) : Except ConfigError ClusterConfig :=
  match c.validate files with
  | .ok () => .ok c
  | .error fault => .error (.invalid fault)

/-- The configuration that a text describes. -/
def ofText (files : FileStore) (text : String) : Except ConfigError ClusterConfig :=
  match ofToml? text with
  | none => .error .malformed
  | some c => c.checked files

/-- The text of a file. -/
def readText (files : FileStore) (path : String) : Except FileError String := do
  match Text.strict? (← files.read path) with
  | some text => .ok text
  | none => .error .notUtf8

/-- The configuration in a file, under an environment. -/
def ofFile (files : FileStore) (lookup : String → Option String) (path : String) :
    Except ConfigError ClusterConfig :=
  match readText files path with
  | .error e => .error (.unreadable path e)
  | .ok text =>
    match ofToml? text with
    | none => .error .malformed
    | some c =>
      match c.tunables.override lookup with
      | (_, some e) => .error e
      | (tunables, none) =>
        let c := { c with tunables }
        let c := match Path.parent? path with
          | some base => c.resolveMounts base
          | none => c
        c.checked files

end ClusterConfig

end ClusterScaler
