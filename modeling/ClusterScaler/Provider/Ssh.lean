import ClusterScaler.Files.Path
import ClusterScaler.Provider.Request
import ClusterScaler.Shell
import ClusterScaler.Text.Utf8

/-!
# Remote shells

Commands run over `ssh`, and files are copied with `rsync` over the same connection options. Both
are programs over local processes.
-/

set_option autoImplicit false

namespace ClusterScaler

/-- The start of a local program. -/
structure Process where
  program : String
  args : List String
  deriving DecidableEq

/-- How a local program ended. -/
structure ProcessExit where
  /-- Absent when a signal ended the program. -/
  code : Option Int := some 0
  stdout : ByteArray := ByteArray.empty
  stderr : ByteArray := ByteArray.empty

/-- The answer to starting a program: it may be missing. -/
abbrev Process.Reply (_ : Process) : Type := Except FileError ProcessExit

namespace SshConnection

/-- A program over local processes. -/
abbrev Script (α : Type) := Program Process Process.Reply α

/-- The options of the remote shell. -/
def options (c : SshConnection) : List String :=
  ["-o", "StrictHostKeyChecking=no", "-o", "UserKnownHostsFile=/dev/null", "-o", "BatchMode=yes",
    "-o", "ConnectTimeout=" ++ natText c.connectTimeout, "-p", natText c.auth.sshPort]
    ++ match c.auth.sshPrivateKey with
      | some key => ["-i", key]
      | none => []

/-- Who is logged in where. -/
def destination (c : SshConnection) : String := c.auth.sshUser ++ "@" ++ c.address

/-- The process that runs a command. -/
def commandProcess (c : SshConnection) (command : String) : Process :=
  ⟨"ssh", c.options ++ [c.destination, command]⟩

/-- Run a command. -/
def run (c : SshConnection) (command : String) : Script (Except RunnerError CommandOutput) := do
  match ← Program.call (c.commandProcess command) with
  | .error e => return .error (.spawn "ssh" e)
  | .ok exit =>
    return .ok ⟨exit.code, Text.lossy exit.stdout, Text.lossy exit.stderr⟩

/-- The remote shell as one word for the copying program. -/
def shellWord (c : SshConnection) : String := String.intercalate " " ("ssh" :: c.options)

/-- The local side of a copy: the contents of a directory rather than the directory itself. -/
def copySource (source : String) (isDirectory : Bool) : String :=
  if isDirectory && !source.endsWith "/" then source ++ "/" else source

/-- The process that copies files. -/
def copyProcess (c : SshConnection) (source target : String) (isDirectory : Bool) : Process :=
  ⟨"rsync", ["-az", "--delete", "-e", c.shellWord, copySource source isDirectory,
    c.destination ++ ":" ++ target]⟩

/-- The command that makes the directory of a target. -/
def directoryCommand (target : String) : String :=
  "mkdir -p " ++ Shell.quote ((Path.parent? target).getD "/")

/-- Copy a file or a directory to a place on the node, whose directory is made first. -/
def sync (c : SshConnection) (source target : String) (isDirectory : Bool) :
    Script (Except RunnerError Unit) := do
  match ← c.run (directoryCommand target) with
  | .error e => return .error e
  | .ok made =>
    if !made.success then return .error (.exit "mkdir" made.exitCode made.stderr)
    else
      match ← Program.call (c.copyProcess source target isDirectory) with
      | .error e => return .error (.spawn "rsync" e)
      | .ok exit =>
        if exit.code == some 0 then return .ok ()
        else return .error (.exit "rsync" exit.code (Text.lossy exit.stderr))

end SshConnection

end ClusterScaler
