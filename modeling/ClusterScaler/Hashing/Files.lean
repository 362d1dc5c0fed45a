import ClusterScaler.Bootstrap
import ClusterScaler.Files.Tree
import ClusterScaler.Hashing.Launch

/-!
# Files hashes

The files hash of a node type covers what is applied to a running node: the contents of its mounts
and its init commands. It is the digest of a sequence of chunks, each with its length in front:
the remote paths and the commands, then per mount its remote path and its content. A directory
contributes, entry by entry in the order of names, its relative path and then the content of a
file or the mark and the target of a symbolic link. Its walk goes by whole paths, and the local path is
taken off each of them: local paths are never hashed.
-/

set_option autoImplicit false

namespace ClusterScaler

/-- Why something could not be hashed. -/
inductive HashError where
  | read (path : String) (error : FileError)
  deriving DecidableEq, Repr

/-- The message of a hashing error. -/
def HashError.message : HashError → String
  | .read path error => "failed to read " ++ path ++ ": " ++ error.message

namespace FilesHash

/-- The 64-bit length of a chunk, least significant byte first. -/
def lengthBytes (n : Nat) : List UInt8 := (List.range 8).map (fun i => (n / Nat.pow 256 i).toUInt8)

/-- A chunk with its length in front. -/
def frame (chunk : ByteArray) : ByteArray := ⟨(lengthBytes chunk.size).toArray⟩ ++ chunk

/-- The bytes of a sequence of chunks. -/
def stream (chunks : List ByteArray) : ByteArray :=
  chunks.foldl (fun bytes c => bytes ++ frame c) ByteArray.empty

/-- The mark of a symbolic link. -/
def linkMark : ByteArray := "->".toUTF8

/-- A relative path one name longer. -/
def extend (path name : String) : String := if path.isEmpty then name else path ++ "/" ++ name

/-- The names that lead from the root of a walk to a place in it. A place elsewhere keeps them all. -/
def below (root place : List String) : List String :=
  if root.isPrefixOf place then place.drop root.length else place

/-- The relative path of a place in a walk. -/
def relative (root place : List String) : String := (below root place).foldl extend ""

mutual

/-- The chunks of a tree at a place in a walk: the relative path, and what the tree holds itself, then
its entries. -/
def treeChunks (root place : List String) : FileTree → List ByteArray
  | .file content => [(relative root place).toUTF8, content]
  | .link target => [(relative root place).toUTF8, linkMark, target.toUTF8]
  | .dir entries => (relative root place).toUTF8 :: entryChunks root place entries

/-- The chunks of the entries of a directory at a place in a walk. -/
def entryChunks (root place : List String) : List (String × FileTree) → List ByteArray
  | [] => []
  | (name, t) :: rest => treeChunks root (place ++ [name]) t ++ entryChunks root place rest

end

/-- The chunks of a mounted path. A file contributes its content alone. A directory is walked from the
path on, and one that is reached through a link contributes that link before its entries. -/
def pathChunks (files : FileStore) (path : String) : Except HashError (List ByteArray) :=
  let root := Path.pieces path
  match files.get path with
  | .ok (.dir entries) =>
    match files.locate false path with
    | .ok ⟨_, some (.link target)⟩ =>
      .ok ((relative root root).toUTF8 :: linkMark :: target.toUTF8 :: entryChunks root root entries)
    | _ => .ok ((relative root root).toUTF8 :: entryChunks root root entries)
  | .ok (.file content) => .ok [content]
  | .ok (.link _) => .error (.read path .notFound)
  | .error e => .error (.read path e)

/-- The first chunk: the remote paths and the commands. -/
def header (remotes commands : List String) : ByteArray :=
  (Json.object [("file_mounts", Json.ofList .str remotes),
    ("init_commands", Json.ofList .str commands)]).canonical.compact.toUTF8

/-- All chunks of mounts (remote to local) and init commands. -/
def chunks (files : FileStore) (mounts : Table String String) (commands : List String) :
    Except HashError (List ByteArray) := do
  let parts ← mounts.entries.mapM (fun (remote, path) => do
    return remote.toUTF8 :: (← pathChunks files path))
  return header mounts.keys commands :: parts.flatten

/-- The files hash of mounts and init commands. -/
def compute (files : FileStore) (mounts : Table String String) (commands : List String) :
    Except HashError ConfigHash := do
  return ⟨Sha256.hex (stream (← chunks files mounts commands))⟩

end FilesHash

/-- Both fingerprints of a node type. -/
structure NodeTypeHashes where
  launch : ConfigHash
  files : ConfigHash
  deriving DecidableEq, Repr

/-- The fingerprints of a configured node type. -/
def hashesOf (files : FileStore) (c : ClusterConfig) (name : String) (t : NodeTypeConfig) :
    Except HashError NodeTypeHashes := do
  let filesHash ← FilesHash.compute files (c.fileMountsFor name) (Bootstrap.recipe c name)
  return ⟨(LaunchConfig.mk name t.nodeConfig t.resources c.auth).hash, filesHash⟩

/-- The fingerprints of all node types of a configuration. -/
def hashesFor (files : FileStore) (c : ClusterConfig) :
    Except HashError (Table String NodeTypeHashes) := do
  let es ← c.nodeTypes.entries.mapM (fun (name, t) => do
    return (name, ← hashesOf files c name t))
  return Table.ofList es

end ClusterScaler
