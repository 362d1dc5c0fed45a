import ClusterScaler.Config.Loading

/-!
# Arguments of the command line

What the arguments of the program ask for. They are read from left to right, and the first thing
that decides counts: a request for help before a mistake, or a mistake before a request for help.
-/

set_option autoImplicit false

namespace ClusterScaler.CommandLine

/-- What to do. -/
inductive Command where
  /-- Run the control loop and serve its interface. -/
  | run (config : String) (port : Nat) (jsonLog : Bool)
  /-- Print the hashes of all node types. -/
  | hash (config : String)
  /-- Check a configuration. -/
  | validate (config : String)
  deriving DecidableEq, Repr

/-- Why there is nothing to do. -/
inductive Usage where
  | help
  | mistake
  deriving DecidableEq, Repr

/-- Options as far as they have been given. -/
structure Options where
  config : Option String := none
  port : Option Nat := none
  jsonLog : Bool := false

/-- The file that is read unless another one is named. -/
def defaultConfig : String := "cluster.toml"

/-- The port that is opened unless another one is named. -/
def defaultPort : Nat := 8470

/-- The port that a text denotes: a number of at most 16 bits, which may have a sign. -/
def readPort? (s : String) : Option Nat :=
  match s.toList with
  | '-' :: ds => if !ds.isEmpty && ds.all (· == '0') then some 0 else none
  | _ => readNat? 16 s

/-- Set an option to a value. An option is set once, and only `run` opens a port. -/
def Options.set? (o : Options) (serves : Bool) (name value : String) : Option Options :=
  match name with
  | "--config" =>
    if o.config.isSome || value.isEmpty then none else some { o with config := some value }
  | "--port" =>
    if !serves || o.port.isSome then none
    else (readPort? value).map (fun port => { o with port := some port })
  | _ => none

/-- Whether an argument asks for help. -/
def asksHelp (arg : String) : Bool := arg == "--help" || arg.startsWith "-h"

/-- Whether an argument can be the value of the option before it. -/
def isValue (arg : String) : Bool := arg == "-" || !arg.startsWith "-"

/-- The name before the first equals sign, and the value behind it. -/
def splitOption (arg : String) : String × Option String :=
  let cs := arg.toList
  let name := String.ofList (cs.takeWhile (· != '='))
  match cs.dropWhile (· != '=') with
  | [] => (name, none)
  | _ :: value => (name, some (String.ofList value))

/-- Read the options after the name of a command. -/
def readOptions (serves : Bool) (o : Options) : List String → Except Usage Options
  | [] => .ok o
  | arg :: rest =>
    if asksHelp arg then .error .help
    else if arg == "--" then if rest.isEmpty then .ok o else .error .mistake
    else if serves && arg == "--log-json" then
      if o.jsonLog then .error .mistake else readOptions serves { o with jsonLog := true } rest
    else
      match splitOption arg, rest with
      | (name, some value), rest =>
        match o.set? serves name value with
        | some o => readOptions serves o rest
        | none => .error .mistake
      | (name, none), value :: rest =>
        if isValue value then
          match o.set? serves name value with
          | some o => readOptions serves o rest
          | none => .error .mistake
        else .error .mistake
      | (_, none), [] => .error .mistake

/-- The names of the commands. -/
def commandNames : List String := ["run", "hash", "validate", "help"]

/-- The command that the arguments name. -/
def parse : List String → Except Usage Command
  | [] => .error .mistake
  | "run" :: rest => do
    let o ← readOptions true {} rest
    return .run (o.config.getD defaultConfig) (o.port.getD defaultPort) o.jsonLog
  | "hash" :: rest => do return .hash ((← readOptions false {} rest).config.getD defaultConfig)
  | "validate" :: rest => do
    return .validate ((← readOptions false {} rest).config.getD defaultConfig)
  | "help" :: rest =>
    match rest with
    | [] => .error .help
    | [name] => .error (if commandNames.contains name then .help else .mistake)
    | _ => .error .mistake
  | arg :: _ => .error (if asksHelp arg then .help else .mistake)

end ClusterScaler.CommandLine
