import ClusterScaler.CommandLine.Execution

/-!
# The program

Reads the files under the working directory and the variables that override tunables, executes the
command that the arguments name, and prints what it leaves behind. This program has no network: a
command to serve ends once everything is ready for it.
-/

set_option autoImplicit false

namespace ClusterScaler

/-- The entries of a listed directory. A link stands for the file it leads to. -/
partial def readEntries (listing : List IO.FS.DirEntry) : IO FileTree.Entries := do
  let mut entries : FileTree.Entries := []
  for e in listing do
    match (← e.path.symlinkMetadata).type with
    | .dir =>
      let inner ← readEntries (← e.path.readDir).toList
      entries := FileTree.putEntry e.fileName (.dir inner) entries
    | .file =>
      entries := FileTree.putEntry e.fileName (.file (← IO.FS.readBinFile e.path)) entries
    | .symlink =>
      if (← e.path.pathExists) && !(← e.path.isDir) then
        entries := FileTree.putEntry e.fileName (.file (← IO.FS.readBinFile e.path)) entries
    | .other => pure ()
  return entries

/-- The values of the variables that override tunables. -/
def readEnvironment : IO (List (String × String)) := do
  let read ← overrides.mapM (fun o => do return (← IO.getEnv o.name).map (o.name, ·))
  return read.filterMap id

end ClusterScaler

open ClusterScaler in
/-- Execute the command that the arguments name. -/
def main (args : List String) : IO UInt32 := do
  let directory ← IO.currentDir
  let entries ← readEntries (← directory.readDir).toList
  -- of the directories above this one only the way through them is read
  let above := (directory.components.filter (· != "")).map (fun name => { name })
  let environment := Table.ofList (← readEnvironment)
  match CommandLine.execute { entries, above } environment.get? args with
  | .ended printed =>
    IO.print printed.out
    IO.eprint printed.err
    return printed.code.toUInt32
  | .serves loop port =>
    IO.eprintln (loop.config.clusterName ++ ": ready to serve at port " ++ natText port)
    return 0
