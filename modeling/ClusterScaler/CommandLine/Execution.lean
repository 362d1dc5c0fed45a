import ClusterScaler.CommandLine.Arguments
import ClusterScaler.ControlLoop.State
import ClusterScaler.Json.Printer
import ClusterScaler.Simulation.World

/-!
# Executing commands

What the program prints, and its exit code: 0 after success, 1 after a failure and 2 after a
mistake in the arguments. A failure is told as what was being done, followed by its causes from the
outermost to the innermost.
-/

set_option autoImplicit false

namespace ClusterScaler.CommandLine

/-- What a run of the program leaves behind. -/
structure Printed where
  code : Nat
  out : String := ""
  err : String := ""
  deriving DecidableEq, Repr

/-- What becomes of a run. -/
inductive Outcome where
  | ended (printed : Printed)
  /-- The control loop is ready, and its interface is to be served at a port. -/
  | serves (loop : ControlLoop) (port : Nat)

/-- A failure: what was being done, and the causes, outermost first. -/
structure Report where
  doing : String
  causes : List String

namespace Report

/-- A text with its lines after the first one moved in by `width` blanks. -/
def hang (width : Nat) (text : String) : String :=
  ("\n" ++ String.ofList (List.replicate width ' ')).intercalate (text.splitOn "\n")

/-- The causes, numbered from `n`. -/
def numbered (n : Nat) : List String → List String
  | [] => []
  | cause :: rest =>
    let number := Nat.toDigits 10 n
    let margin := String.ofList (List.replicate (5 - number.length) ' ' ++ number)
    (margin ++ ": " ++ hang 7 cause) :: numbered (n + 1) rest

/-- The text of a failure; a single cause has no number. -/
def text (r : Report) : String :=
  let causes := match r.causes with
    | [] => []
    | [cause] => ["    " ++ hang 4 cause]
    | causes => numbered 0 causes
  let told := if causes.isEmpty then [] else "\n\nCaused by:" :: causes.map ("\n" ++ ·)
  "Error: " ++ r.doing ++ String.join told ++ "\n"

/-- The outcome of a failure. -/
def outcome (r : Report) : Outcome := .ended { code := 1, err := r.text }

end Report

/-- The causes of a configuration error. -/
def configCauses (e : ConfigError) : List String :=
  e.message :: match e with
    | .unreadable _ cause => [cause.message]
    | .malformed | .invalid _ | .badOverride .. => []

/-- The causes of a hashing error. -/
def hashCauses (e : HashError) : List String :=
  e.message :: match e with
    | .read _ cause => [cause.message]

/-- Load the configuration in a file. -/
def load (files : FileStore) (lookup : String → Option String) (path : String) :
    Except Report ClusterConfig :=
  (ClusterConfig.ofFile files lookup path).mapError (fun e => ⟨"loading " ++ path, configCauses e⟩)

/-- The hashes of node types as a value. -/
def hashesToJson (hashes : Table String NodeTypeHashes) : Json :=
  Json.ofTable
    (fun h => Json.object [("launch", .str h.launch.hex), ("files", .str h.files.hex)]) hashes

/-- The line that describes a configuration. -/
def describe (path : String) (c : ClusterConfig) : String :=
  path ++ ": cluster " ++ Text.quoted c.clusterName ++ ", " ++ natText c.nodeTypes.size
    ++ " node types, provider " ++ c.provider.kind ++ "\n"

/-- The control loop of a configuration before its first tick. -/
def start (files : FileStore) (c : ClusterConfig) : Except Report ControlLoop :=
  match World.ofConfig c files with
  | (.error e, _) => .error ⟨"building node provider", [e.message]⟩
  | (.ok _, files) =>
    (ControlLoop.new files c).mapError
      (fun e => ⟨"initializing autoscaler", (LoopError.hash e).message :: hashCauses e⟩)

/-- Execute a command. -/
def Command.execute (files : FileStore) (lookup : String → Option String) :
    Command → Except Report Outcome
  | .validate path => do
    let c ← load files lookup path
    return .ended { code := 0, out := describe path c }
  | .hash path => do
    let c ← load files lookup path
    let hashes ← (hashesFor files c).mapError (fun e => ⟨"hashing node types", hashCauses e⟩)
    return .ended { code := 0, out := (hashesToJson hashes).pretty ++ "\n" }
  | .run path port _ => do
    let c ← load files lookup path
    return .serves (← start files c) port

/-- How to use the program. -/
def usageText : String :=
  "Usage: fleetd <COMMAND>\n\nCommands:\n"
    ++ "  run       Run the control loop and serve the API\n"
    ++ "  hash      Print the launch and files hash of every node type\n"
    ++ "  validate  Check a cluster config file and exit\n"
    ++ "  help      Print this message\n\nOptions:\n"
    ++ "  --config <CONFIG>  Cluster config file [default: cluster.toml]\n"
    ++ "  --port <PORT>      Port to listen on (run) [default: 8470]\n"
    ++ "  --log-json         Emit JSON log lines (run)\n"
    ++ "  -h, --help         Print this message\n"

/-- Run the program with arguments. -/
def execute (files : FileStore) (lookup : String → Option String) (args : List String) : Outcome :=
  match parse args with
  | .error .help => .ended { code := 0, out := usageText }
  | .error .mistake => .ended { code := 2, err := usageText }
  | .ok command =>
    match command.execute files lookup with
    | .ok outcome => outcome
    | .error report => report.outcome

end ClusterScaler.CommandLine
