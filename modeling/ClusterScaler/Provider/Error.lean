import ClusterScaler.Config.Error
import ClusterScaler.Node.Basic

/-!
# Provider errors

Why a call to a node provider failed, and why a command or a copy on a node could not be carried
out.
-/

set_option autoImplicit false

namespace ClusterScaler

/-- The failure of a provider call. -/
inductive ProviderError where
  /-- The call may succeed when it is repeated. -/
  | transient (reason : String)
  | permanent (reason : String)
  | notSupported (what : String)
  | notFound (node : NodeId)
  deriving DecidableEq, Repr

namespace ProviderError

/-- Whether repeating the call may help. -/
def isTransient : ProviderError → Bool
  | transient _ => true
  | _ => false

/-- The message of a provider error. -/
def message : ProviderError → String
  | transient reason => "transient provider error: " ++ reason
  | permanent reason => "permanent provider error: " ++ reason
  | notSupported what => what ++ " is not supported by this provider"
  | notFound node => "node not found: " ++ node.text

end ProviderError

/-- The result of a provider call. -/
abbrev ProviderResult (α : Type) := Except ProviderError α

/-- What a command left behind. -/
structure CommandOutput where
  /-- Absent when a signal ended the command. -/
  exitCode : Option Int := none
  stdout : String := ""
  stderr : String := ""
  deriving DecidableEq, Repr

/-- Whether a command ended with exit code zero. -/
def CommandOutput.success (o : CommandOutput) : Bool := o.exitCode == some 0

/-- An exit code as text. -/
def exitCodeText : Option Int → String
  | none => "None"
  | some (.ofNat n) => "Some(" ++ natText n ++ ")"
  | some (.negSucc n) => "Some(-" ++ natText (n + 1) ++ ")"

/-- The failure of a command or a copy. -/
inductive RunnerError where
  /-- A local program could not be started. -/
  | spawn (program : String) (error : FileError)
  /-- A program that has to succeed ended otherwise. -/
  | exit (program : String) (code : Option Int) (stderr : String)
  deriving DecidableEq, Repr

/-- The message of a runner error. -/
def RunnerError.message : RunnerError → String
  | .spawn program error => "failed to spawn " ++ program ++ ": " ++ error.message
  | .exit program code stderr => program ++ " exited with " ++ exitCodeText code ++ ": " ++ stderr

end ClusterScaler
