import ClusterScaler.Config.Loading
import ClusterScaler.Json.Printer
import ClusterScaler.Json.Reader
import ClusterScaler.Provider.Request

/-!
# A fixed pool of hosts

A provider over a fixed set of hosts, each of which belongs to one node type. Making a node claims
a free host and terminating it releases the host. A node is known as `address#generation`, and
every claim of a host raises its generation, so an identifier is never answered to by a later
claim. The table of hosts is saved after every change; where and how is left to a `Saver`.
-/

set_option autoImplicit false

namespace ClusterScaler

/-- Whether a host is claimed. -/
inductive HostState where
  | free
  | running
  deriving DecidableEq, Repr

/-- What is known about a host. -/
structure HostRecord where
  nodeType : String
  state : HostState
  generation : Nat
  tags : Tags
  deriving DecidableEq

namespace HostRecord

/-- A host that was never claimed. -/
def fresh (nodeType : String) : HostRecord := ⟨nodeType, .free, 0, ∅⟩

/-- The identifier of the node on a host. -/
def nodeId (r : HostRecord) (address : String) : NodeId :=
  ⟨address ++ "#" ++ natText r.generation⟩

/-- The host after its next claim. -/
def claimed (r : HostRecord) (tags : Tags) : HostRecord :=
  { r with generation := r.generation + 1, state := .running, tags }

/-- The host after its release. -/
def released (r : HostRecord) : HostRecord := { r with state := .free, tags := ∅ }

end HostRecord

/-- The hosts by their addresses. -/
abbrev HostTable := Table String HostRecord

namespace HostTable

/-- The word for a host state. -/
def stateText : HostState → String
  | .free => "free"
  | .running => "running"

/-- A host as a value. -/
def recordToJson (r : HostRecord) : Json :=
  .obj [("node_type", .str r.nodeType), ("state", .str (stateText r.state)),
    ("generation", .nat r.generation), ("tags", Json.ofTable .str r.tags)]

/-- The text that is saved. -/
def encode (hosts : HostTable) : String := (Json.ofTable recordToJson hosts).pretty

/-- A host state: its word, or an object of its word and null. -/
def state : Reader HostState
  | .obj [(name, .null)] true => byName name
  | d => do byName (← Reader.text d)
where
  /-- The state of a word. -/
  byName (name : String) : Except ReadFault HostState :=
    if name = "free" then .ok .free
    else if name = "running" then .ok .running
    else .error .unexpected

/-- The settings of a saved host. -/
def recordFields : List (Reader.Field HostRecord) :=
  [⟨"node_type", true, fun r d => do return { r with nodeType := ← Reader.text d }⟩,
    ⟨"state", true, fun r d => do return { r with state := ← state d }⟩,
    ⟨"generation", true, fun r d => do return { r with generation := ← Reader.nat 64 d }⟩,
    ⟨"tags", false, fun r d => do return { r with tags := ← Reader.table Reader.text d }⟩]

/-- The hosts that a saved text describes. -/
def decode? (text : String) : Option HostTable :=
  (Reader.ofText (Reader.table (Reader.group recordFields (HostRecord.fresh ""))) text).toOption

end HostTable

/-- A way to save a table of hosts into something that changes by it. -/
structure Saver (σ : Type) where
  save : HostTable → σ → ProviderResult Unit × σ

/-- Keep nothing. -/
def Saver.none (σ : Type) : Saver σ := ⟨fun _ s => (.ok (), s)⟩

/-- Write to a file beside the given one, then put it in its place. -/
def writeBeside (path content : String) (files : FileStore) : Except FileError Unit × FileStore :=
  let temporary := Path.withExtension path "tmp"
  match files.write temporary content.toUTF8 with
  | .error e => (.error e, files)
  | .ok files =>
    match files.rename temporary path with
    | .error e => (.error e, files)
    | .ok files => (.ok (), files)

/-- Save into a file. -/
def Saver.toFile (path : String) : Saver FileStore :=
  ⟨fun hosts files =>
    match writeBeside path hosts.encode files with
    | (.ok (), files) => (.ok (), files)
    | (.error e, files) =>
      (.error (.transient ("failed to write " ++ path ++ ": " ++ e.message)), files)⟩

/-- The saver of a pool that may have a state file. -/
def Saver.ofPath? : Option String → Saver FileStore
  | some path => Saver.toFile path
  | Option.none => Saver.none FileStore

/-- A pool of hosts. -/
structure HostPool where
  hosts : HostTable
  /-- The address of a host that is reachable from outside. -/
  externalIps : Table String String
  statePath : Option String

namespace HostPool

/-- The table of the configured hosts, given what was saved. A saved host keeps its record if its
type is still the same; of an address that is listed twice only the first can. -/
def merge (saved : HostTable) (configured : List (String × String)) : HostTable :=
  (configured.foldl
    (fun (saved, hosts) (nodeType, address) =>
      let record := match saved.get? address with
        | some r => if r.nodeType = nodeType then r else .fresh nodeType
        | none => .fresh nodeType
      (saved.erase address, hosts.insert address record))
    (saved, (∅ : HostTable))).2

/-- The hosts of a configuration with their types, in order. -/
def configuredHosts (hosts : Table String (List String)) : List (String × String) :=
  hosts.entries.flatMap (fun (nodeType, addresses) => addresses.map (nodeType, ·))

/-- The start of the message for a state file that cannot be understood. -/
def corruptText (path : String) : String := "corrupt state file " ++ path

/-- The hosts saved in a file, none where there is no file. -/
def load (files : FileStore) (path : String) : ProviderResult HostTable :=
  if !files.exists path then .ok ∅
  else
    match ClusterConfig.readText files path with
    | .error e => .error (.permanent ("failed to read " ++ path ++ ": " ++ e.message))
    | .ok text =>
      match HostTable.decode? text with
      | some hosts => .ok hosts
      | none => .error (.permanent (corruptText path))

/-- Open a pool: merge the configured hosts with the saved ones and save the result. -/
def «open» (hosts : Table String (List String)) (externalIps : Table String String)
    (statePath : Option String) (files : FileStore) : ProviderResult HostPool × FileStore :=
  let saved := match statePath with
    | some path => load files path
    | none => .ok ∅
  match saved with
  | .error e => (.error e, files)
  | .ok saved =>
    let hosts := merge saved (configuredHosts hosts)
    match (Saver.ofPath? statePath).save hosts files with
    | (.ok (), files) => (.ok ⟨hosts, externalIps, statePath⟩, files)
    | (.error e, files) => (.error e, files)

/-- The address and the generation that an identifier names. -/
def splitId (node : NodeId) : Option (String × Nat) :=
  let r := node.text.toList.reverse
  let tail := r.takeWhile (· != '#')
  match r.drop tail.length with
  | [] => none
  | _ :: before =>
    (readNat? 64 (String.ofList tail.reverse)).map (String.ofList before.reverse, ·)

/-- The host that an identifier names, and the generation in it. -/
def lookup (p : HostPool) (node : NodeId) : ProviderResult (String × HostRecord × Nat) :=
  match splitId node with
  | none => .error (.notFound node)
  | some (address, generation) =>
    match p.hosts.get? address with
    | some r => .ok (address, r, generation)
    | none => .error (.notFound node)

/-- Whether a host is claimed under a generation. -/
def isLive (r : HostRecord) (generation : Nat) : Bool :=
  r.state = .running && generation = r.generation

/-- The host of a live node. -/
def live (p : HostPool) (node : NodeId) : ProviderResult (String × HostRecord) := do
  let (address, r, generation) ← p.lookup node
  if isLive r generation then .ok (address, r) else .error (.notFound node)

/-- The live nodes that carry all the given tags. -/
def listNodes (p : HostPool) (filter : Tags) : List NodeId :=
  p.hosts.entries.filterMap fun (address, r) =>
    if r.state = .running && r.tags.satisfies filter then some (r.nodeId address) else none

/-- Whether a node is live. -/
def isRunning (p : HostPool) (node : NodeId) : ProviderResult Bool := do
  let (_, r, generation) ← p.lookup node
  return isLive r generation

/-- Whether a node is not live any more. -/
def isTerminated (p : HostPool) (node : NodeId) : ProviderResult Bool := do
  let (_, r, generation) ← p.lookup node
  return !isLive r generation

/-- The tags of a live node. -/
def nodeTags (p : HostPool) (node : NodeId) : ProviderResult Tags := do
  let (_, r) ← p.live node
  return r.tags

/-- The address of a host. -/
def internalIp (p : HostPool) (node : NodeId) : ProviderResult String := do
  let (address, _, _) ← p.lookup node
  return address

/-- The address of a host that is reachable from outside. -/
def externalIp (p : HostPool) (node : NodeId) : ProviderResult String := do
  let (address, _, _) ← p.lookup node
  match p.externalIps.get? address with
  | some ip => .ok ip
  | none => .error (.notSupported "external_ip")

/-- The addresses of the free hosts of a type. -/
def freeHosts (p : HostPool) (nodeType : String) : List String :=
  (p.hosts.filter (fun _ r => r.nodeType = nodeType && r.state = .free)).keys

/-- The pool after a change of some hosts. -/
def update (p : HostPool) (f : HostRecord → HostRecord) (addresses : List String) : HostPool :=
  { p with
    hosts := addresses.foldl
      (fun hosts address => match hosts.get? address with
        | some r => hosts.insert address (f r)
        | none => hosts) p.hosts }

section Changes

variable {σ : Type}

/-- Save a changed pool. The change stays in memory even where it could not be saved. -/
def persist (saver : Saver σ) (p : HostPool) (store : σ) : ProviderResult Unit × HostPool × σ :=
  let (result, store) := saver.save p.hosts store
  (result, p, store)

/-- Add tags to those of a live node. -/
def setNodeTags (saver : Saver σ) (p : HostPool) (store : σ) (node : NodeId) (tags : Tags) :
    ProviderResult Unit × HostPool × σ :=
  match p.live node with
  | .error e => (.error e, p, store)
  | .ok (address, _) =>
    persist saver (p.update (fun r => { r with tags := r.tags.overlay tags }) [address]) store

/-- Claim free hosts of a type, the first by address, if there are enough. -/
def createNodes (saver : Saver σ) (p : HostPool) (store : σ) (nodeType : String) (tags : Tags)
    (count : Nat) : ProviderResult Unit × HostPool × σ :=
  let free := (p.freeHosts nodeType).take count
  if free.length < count then
    (.error (.permanent (natText free.length ++ " free hosts for node type " ++ nodeType ++ ", "
      ++ natText count ++ " requested")), p, store)
  else persist saver (p.update (·.claimed tags) free) store

/-- Release the host of a node. For a node that is not live any more nothing is done. -/
def terminateNode (saver : Saver σ) (p : HostPool) (store : σ) (node : NodeId) :
    ProviderResult Unit × HostPool × σ :=
  match p.lookup node with
  | .error e => (.error e, p, store)
  | .ok (address, r, generation) =>
    if isLive r generation then persist saver (p.update (·.released) [address]) store
    else (.ok (), p, store)

/-- Release the hosts of nodes in turn, up to the first failure. -/
def terminateNodes (saver : Saver σ) (p : HostPool) (store : σ) :
    List NodeId → ProviderResult Unit × HostPool × σ
  | [] => (.ok (), p, store)
  | node :: rest =>
    match p.terminateNode saver store node with
    | (.ok (), p, store) => p.terminateNodes saver store rest
    | (.error e, p, store) => (.error e, p, store)

end Changes

/-- The connection to a node: to its outer address, or to the inner one where there is none. -/
def commandRunner (p : HostPool) (node : NodeId) (auth : AuthConfig) : ProviderResult Runner :=
  match p.externalIp node with
  | .ok address => .ok (.ssh { address, auth })
  | .error (.notSupported _) => do
    let address ← p.internalIp node
    return .ssh { address, auth }
  | .error e => .error e

end HostPool

end ClusterScaler
