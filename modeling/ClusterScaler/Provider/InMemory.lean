import ClusterScaler.Provider.Request

/-!
# Nodes in memory

A provider that behaves like a small cloud: new nodes wait until they are set running unless they
run at once, identifiers are never handed out twice, and terminated nodes are no longer listed.
Failures of the next calls can be queued, calls are counted, and commands are recorded instead of
executed.
-/

set_option autoImplicit false

namespace ClusterScaler

namespace InMemory

/-- Where a node stands. -/
inductive Phase where
  | pending
  | running
  | terminated
  deriving DecidableEq, Repr

/-- A node. -/
structure Node where
  phase : Phase
  tags : Tags
  address : String

/-- A recorded use of a node's shell. -/
inductive Invocation where
  | command (node : NodeId) (command : String)
  | sync (node : NodeId) (source target : String)
  deriving DecidableEq

/-- How the provider behaves. -/
structure Options where
  /-- New nodes run at once. -/
  autoRun : Bool := false
  /-- How long the creation of nodes takes. -/
  createLatency : Duration := ⟨0⟩
  /-- How long a command takes. -/
  commandLatency : Duration := ⟨0⟩

end InMemory

/-- The state of the provider. -/
structure InMemory where
  options : InMemory.Options := {}
  nodes : Table NodeId InMemory.Node := ∅
  /-- How many nodes were ever made. -/
  made : Nat := 0
  createFailures : List ProviderError := []
  terminateFailures : List ProviderError := []
  /-- The terminated nodes, in order. -/
  terminated : List NodeId := []
  createCalls : Nat := 0
  terminateCalls : Nat := 0
  /-- The creations under way. -/
  creating : Nat := 0
  /-- The most creations ever under way at once. -/
  peakCreating : Nat := 0
  invocations : List InMemory.Invocation := []
  /-- Commands that contain a pattern end with its exit code; the first match counts. -/
  failing : List (String × Int) := []

namespace InMemory

/-- The identifier of the node made as number `n`. -/
def idOf (n : Nat) : NodeId := ⟨"fake-" ++ natText n⟩

/-- The address of the node made as number `n`. -/
def addressOf (n : Nat) : String := "10.10." ++ natText (n / 256) ++ "." ++ natText (n % 256)

/-- Make one node. -/
def addNode (p : InMemory) (tags : Tags) (phase : Phase) : InMemory :=
  let n := p.made + 1
  { p with made := n, nodes := p.nodes.insert (idOf n) ⟨phase, tags, addressOf n⟩ }

/-- Make nodes of a kind. -/
def addNodes (p : InMemory) (tags : Tags) (phase : Phase) : Nat → InMemory
  | 0 => p
  | count + 1 => (p.addNode tags phase).addNodes tags phase count

/-- Put a node into the provider as if it had been there before. -/
def insertNode (p : InMemory) (tags : Tags) (running : Bool) : NodeId × InMemory :=
  (idOf (p.made + 1), p.addNode tags (if running then .running else .pending))

/-- A node that runs if it was pending. -/
def Node.started (n : Node) : Node :=
  if n.phase = .pending then { n with phase := .running } else n

/-- Set a pending node running. -/
def setRunning (p : InMemory) (node : NodeId) : InMemory :=
  match p.nodes.get? node with
  | some n => { p with nodes := p.nodes.insert node n.started }
  | none => p

/-- Set every pending node running. -/
def runAllPending (p : InMemory) : InMemory :=
  { p with nodes := p.nodes.mapValues (fun _ n => n.started) }

/-- Let the next creations fail. -/
def failCreates (p : InMemory) (n : Nat) (e : ProviderError) : InMemory :=
  { p with createFailures := p.createFailures ++ List.replicate n e }

/-- Let the next terminations fail. -/
def failTerminates (p : InMemory) (n : Nat) (e : ProviderError) : InMemory :=
  { p with terminateFailures := p.terminateFailures ++ List.replicate n e }

/-- Let commands that contain a pattern end with an exit code. -/
def failCommand (p : InMemory) (pattern : String) (code : Int) : InMemory :=
  { p with failing := p.failing ++ [(pattern, code)] }

/-- The nodes that are not terminated. -/
def live (p : InMemory) : List NodeId :=
  (p.nodes.filter (fun _ n => n.phase != .terminated)).keys

/-- The nodes that are not terminated and carry all the given tags. -/
def listNodes (p : InMemory) (filter : Tags) : List NodeId :=
  (p.nodes.filter (fun _ n => n.phase != .terminated && n.tags.satisfies filter)).keys

/-- Whether a node is known and in a phase. -/
def isIn (p : InMemory) (node : NodeId) (phase : Phase) : Bool :=
  match p.nodes.get? node with
  | some n => n.phase == phase
  | none => false

/-- A node, if it is known. -/
def find (p : InMemory) (node : NodeId) : ProviderResult Node :=
  match p.nodes.get? node with
  | some n => .ok n
  | none => .error (.notFound node)

/-- Add tags to those of a node. -/
def setNodeTags (p : InMemory) (node : NodeId) (tags : Tags) : ProviderResult Unit × InMemory :=
  match p.find node with
  | .ok n =>
    let changed := { n with tags := n.tags.overlay tags }
    (.ok (), { p with nodes := p.nodes.insert node changed })
  | .error e => (.error e, p)

/-- A creation starts. -/
def beginCreate (p : InMemory) : InMemory :=
  { p with
    createCalls := p.createCalls + 1
    creating := p.creating + 1
    peakCreating := max p.peakCreating (p.creating + 1) }

/-- A creation ends without effect. -/
def cancelCreate (p : InMemory) : InMemory := { p with creating := p.creating - 1 }

/-- A creation ends: with the next queued failure, or with new nodes. -/
def finishCreate (p : InMemory) (tags : Tags) (count : Nat) : ProviderResult Unit × InMemory :=
  let p := p.cancelCreate
  match p.createFailures with
  | e :: rest => (.error e, { p with createFailures := rest })
  | [] => (.ok (), p.addNodes tags (if p.options.autoRun then .running else .pending) count)

/-- Terminate a node that is known and live. -/
def terminateLive (p : InMemory) (node : NodeId) : InMemory :=
  match p.nodes.get? node with
  | some n =>
    if n.phase = .terminated then p
    else
      { p with
        nodes := p.nodes.insert node { n with phase := .terminated }
        terminated := p.terminated ++ [node] }
  | none => p

/-- Terminate nodes: the next queued failure, or all of them. -/
def terminateNodes (p : InMemory) (nodes : List NodeId) : ProviderResult Unit × InMemory :=
  let p := { p with terminateCalls := p.terminateCalls + 1 }
  match p.terminateFailures with
  | e :: rest => (.error e, { p with terminateFailures := rest })
  | [] => (.ok (), nodes.foldl terminateLive p)

/-- The node under which a runner records. -/
def recordedUnder (node : Option NodeId) : NodeId := node.getD ⟨"unbound"⟩

/-- Whether a text occurs in another. -/
def occursIn (pattern : List Char) : List Char → Bool
  | [] => pattern.isEmpty
  | c :: rest => pattern.isPrefixOf (c :: rest) || occursIn pattern rest

/-- Record a command and answer with its scripted exit code. -/
def runCommand (p : InMemory) (node : Option NodeId) (command : String) :
    CommandOutput × InMemory :=
  let code :=
    match p.failing.find? (fun f => occursIn f.1.toList command.toList) with
    | some f => f.2
    | none => 0
  let stderr := if code = 0 then "" else "fake failure for " ++ Text.quoted command
  ({ exitCode := some code, stderr },
    { p with invocations := p.invocations ++ [.command (recordedUnder node) command] })

/-- Record a copy. -/
def syncFiles (p : InMemory) (node : Option NodeId) (source target : String) : InMemory :=
  { p with invocations := p.invocations ++ [.sync (recordedUnder node) source target] }

/-- The commands recorded for a node, in order. -/
def commandsFor (p : InMemory) (node : NodeId) : List String :=
  p.invocations.filterMap fun
    | .command n command => if n = node then some command else none
    | .sync .. => none

end InMemory

end ClusterScaler
