import ClusterScaler.Provider.HostPool
import ClusterScaler.Provider.InMemory
import ClusterScaler.Provider.Ssh

/-!
# Worlds

A world answers requests: it has a provider, files, and stand-ins for the local programs that
reach nodes. An answer may take time, and a request may be given up while it waits.
-/

set_option autoImplicit false

namespace ClusterScaler

/-- A node provider. -/
inductive Backend where
  | inMemory (p : InMemory)
  | pool (p : HostPool)

/-- The word for the kind of a provider. -/
def Backend.name : Backend → String
  | inMemory _ => "fake"
  | pool _ => "static"

/-- Stand-ins for local programs. -/
structure Programs where
  /-- The programs that exist. -/
  available : List String := []
  /-- How the next programs end; beyond the list they succeed. -/
  plan : List ProcessExit := []
  /-- The programs that were started, in order. -/
  started : List Process := []

/-- Start a program. -/
def Programs.start (s : Programs) (p : Process) : Except FileError ProcessExit × Programs :=
  if s.available.contains p.program then
    (.ok (s.plan.headD {}), { s with plan := s.plan.tail, started := s.started ++ [p] })
  else (.error .notFound, s)

/-- What answers requests. -/
structure World where
  backend : Backend
  files : FileStore := .empty
  programs : Programs := {}

namespace World

/-- Open the provider of a configuration. -/
def ofConfig (c : ClusterConfig) (files : FileStore) : ProviderResult World × FileStore :=
  match c.provider with
  | .inMemory autoRun => (.ok { backend := .inMemory { options := { autoRun } }, files }, files)
  | .pool statePath hosts externalIps =>
    match HostPool.open hosts externalIps statePath files with
    | (.ok p, files) => (.ok { backend := .pool p, files }, files)
    | (.error e, files) => (.error e, files)

/-- Carry out a script of local programs. -/
def carryOut {α : Type} (w : World) (script : SshConnection.Script α) : α × World :=
  let (a, programs) := script.run (fun p s => s.start p) w.programs
  (a, { w with programs })

/-- Change the nodes in memory, if that is where they are. -/
def changeMemory {α : Type} (w : World) (otherwise : α) (f : InMemory → α × InMemory) :
    α × World :=
  match w.backend with
  | .inMemory p =>
    let (a, p) := f p
    (a, { w with backend := .inMemory p })
  | .pool _ => (otherwise, w)

/-- Ask the provider something that changes nothing. -/
def query {α : Type} (w : World) (memory : InMemory → α) (pool : HostPool → α) : α × World :=
  match w.backend with
  | .inMemory p => (memory p, w)
  | .pool p => (pool p, w)

/-- Ask the provider for a change. -/
def change (w : World) (memory : InMemory → ProviderResult Unit × InMemory)
    (pool : Saver FileStore → HostPool → FileStore → ProviderResult Unit × HostPool × FileStore) :
    ProviderResult Unit × World :=
  match w.backend with
  | .inMemory p =>
    let (r, p) := memory p
    (r, { w with backend := .inMemory p })
  | .pool p =>
    let (r, p, files) := pool (Saver.ofPath? p.statePath) p w.files
    (r, { w with backend := .pool p, files })

/-- The answer to a request, once it is due. -/
def answer (w : World) : (r : Request) → r.Reply × World
  | .listNodes filter => w.query (.ok <| ·.listNodes filter) (.ok <| ·.listNodes filter)
  | .isRunning node => w.query (.ok <| ·.isIn node .running) (·.isRunning node)
  | .isTerminated node => w.query (.ok <| ·.isIn node .terminated) (·.isTerminated node)
  | .nodeTags node => w.query (fun p => (p.find node).map (·.tags)) (·.nodeTags node)
  | .setNodeTags node tags =>
    w.change (·.setNodeTags node tags) (fun saver p files => p.setNodeTags saver files node tags)
  | .internalIp node => w.query (fun p => (p.find node).map (·.address)) (·.internalIp node)
  | .externalIp node =>
    w.query (fun _ => .error (.notSupported "external_ip")) (·.externalIp node)
  | .createNodes template tags count =>
    w.change (·.finishCreate tags count)
      (fun saver p files => p.createNodes saver files template.nodeType tags count)
  | .terminateNode node =>
    w.change (·.terminateNodes [node]) (fun saver p files => p.terminateNode saver files node)
  | .terminateNodes nodes =>
    w.change (·.terminateNodes nodes) (fun saver p files => p.terminateNodes saver files nodes)
  | .commandRunner node auth =>
    w.query (fun p => (p.find node).map (fun _ => .recording (some node)))
      (·.commandRunner node auth)
  | .run (.recording node) command =>
    w.changeMemory (.ok {}) (fun p =>
      let (output, p) := p.runCommand node command
      (.ok output, p))
  | .run (.ssh c) command => w.carryOut (c.run command)
  | .sync (.recording node) source target =>
    w.changeMemory (.ok ()) (fun p => (.ok (), p.syncFiles node source target))
  | .sync (.ssh c) source target => w.carryOut (c.sync source target (w.files.isDir source))
  | .pause _ => ((), w)

/-- How long the answer to a request takes. -/
def latency (w : World) (r : Request) : Duration :=
  match r, w.backend with
  | .pause d, _ => d
  | .createNodes .., .inMemory p => p.options.createLatency
  | .run (.recording _) _, .inMemory p => p.options.commandLatency
  | _, _ => ⟨0⟩

/-- A request arrives. -/
def enter (w : World) (r : Request) : World :=
  match r, w.backend with
  | .createNodes .., .inMemory p => { w with backend := .inMemory p.beginCreate }
  | _, _ => w

/-- A request that waits for its answer is given up. -/
def leave (w : World) (r : Request) : World :=
  match r, w.backend with
  | .createNodes .., .inMemory p => { w with backend := .inMemory p.cancelCreate }
  | _, _ => w

end World

end ClusterScaler
