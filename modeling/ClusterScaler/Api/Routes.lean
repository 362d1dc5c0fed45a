import ClusterScaler.Api.Encode
import ClusterScaler.Api.Feeds
import ClusterScaler.Api.MediaType
import ClusterScaler.Api.Message
import ClusterScaler.Exposition

/-!
# The interface of the control loop

Which requests there are, and what they do to the feeds of the control loop. `Api.handle` gives the
response to a request together with the feeds after it; a response with a code from 400 on comes
with the feeds as they were.
-/

set_option autoImplicit false

namespace ClusterScaler.Api

/-- What a request asks for. -/
inductive Operation where
  | recordHeartbeat
  | setDemand
  | readDemand
  | readStatus
  | readNodes
  | readLoad
  | resetBreaker
  | reload
  | readMetrics
  deriving DecidableEq, Repr

/-- The method and the path of an operation. -/
structure Route where
  path : String
  method : String
  operation : Operation

/-- All operations. -/
def routes : List Route :=
  [⟨"/api/v1/heartbeats", "POST", .recordHeartbeat⟩,
    ⟨"/api/v1/demand", "POST", .setDemand⟩,
    ⟨"/api/v1/demand", "GET", .readDemand⟩,
    ⟨"/api/v1/status", "GET", .readStatus⟩,
    ⟨"/api/v1/nodes", "GET", .readNodes⟩,
    ⟨"/api/v1/load", "GET", .readLoad⟩,
    ⟨"/api/v1/breaker/reset", "POST", .resetBreaker⟩,
    ⟨"/api/v1/reload", "POST", .reload⟩,
    ⟨"/metrics", "GET", .readMetrics⟩]

/-- The methods by which a route is reached: what can be fetched can also be asked for without its
content. -/
def Route.methods (r : Route) : List String :=
  if r.method == "GET" then ["GET", "HEAD"] else [r.method]

/-- How a request failed. -/
inductive Failure where
  | unknownPath
  | unknownMethod (allowed : List String)
  /-- The body is not said to be JSON. -/
  | otherMediaType
  | tooLarge
  | unreadable (fault : ReadFault)
  | refused (why : Refusal)

/-- The code of a refusal. -/
def refusalCode : Refusal → Nat
  | .emptyNodeId | .badAmount .. | .noConfigFile | .badConfig _ => 400
  | .outdatedHeartbeat | .clusterRenamed .. => 409
  | .loopNotRunning => 503

/-- The content that reports success. -/
def succeeded (data : Json) : Content :=
  .data (Json.object [("success", .bool true), ("data", data)])

/-- The response to a request that failed. -/
def Failure.response : Failure → Response
  | unknownPath => { code := 404 }
  | unknownMethod allowed => { code := 405, allow := allowed }
  | otherMediaType => { code := 415, content := .remark "The body has to be JSON." }
  | tooLarge => { code := 413, content := .remark "The body is too large." }
  | unreadable .malformed => { code := 400, content := .remark "The body is not JSON." }
  | unreadable .unexpected => { code := 422, content := .remark "The body has another shape." }
  | refused why =>
    { code := refusalCode why,
      content := .data (Json.object [("success", .bool false), ("error", .str why.message)]) }

/-- What the interface can see around it. -/
structure Setting where
  files : FileStore
  environment : String → Option String
  /-- The file that is read again on request. -/
  configPath : Option String
  loopRuns : Bool
  now : Nat

/-- What becomes of a request. -/
inductive Outcome where
  /-- It was carried out, which left these feeds. -/
  | done (response : Response) (feeds : Feeds)
  | failed (why : Failure)
  /-- It waits for room in the queue of commands. -/
  | waiting

/-- How many bytes a body may have. -/
def maxBodySize : Nat := 2097152

/-- The value in the body of a request. -/
def Request.value {α : Type} (read : String → Except ReadFault α) (r : Request) :
    Except Failure α :=
  if !((r.contentType.bind MediaType.ofText?).any MediaType.isJson) then .error .otherMediaType
  else if maxBodySize < r.body.utf8ByteSize then .error .tooLarge
  else (read r.body).mapError .unreadable

/-- An outcome without new feeds. -/
def Outcome.report (f : Feeds) (data : Json) : Outcome :=
  .done { code := 200, content := succeeded data } f

/-- The outcome of a change that can be refused. -/
def Outcome.ofChange (data : Json) : Except Refusal Feeds → Outcome
  | .ok f => report f data
  | .error why => .failed (.refused why)

/-- The outcome of a command. -/
def Outcome.ofEnqueuing (data : List (String × Json)) : Enqueuing → Outcome
  | .taken f =>
    .done { code := 202, content := succeeded (Json.object (("status", .str "queued") :: data)) } f
  | .refused why => .failed (.refused why)
  | .waiting => .waiting

/-- Carry out an operation. -/
def perform (s : Setting) (f : Feeds) (r : Request) : Operation → Outcome
  | .recordHeartbeat =>
    match r.value Heartbeat.ofText with
    | .error e => .failed e
    | .ok h =>
      .ofChange (Json.object [("node_id", .str h.node.text), ("at", .nat s.now)]) (f.beat h s.now)
  | .setDemand =>
    match r.value Demand.ofText with
    | .error e => .failed e
    | .ok demand => .ofChange (Json.object [("bundles", .nat demand.length)]) (f.setDemand demand)
  | .readDemand => .report f (Json.ofList (·.toJson) f.demand)
  | .readStatus => .report f f.status.toJson
  | .readNodes => .report f (Json.ofList (·.toJson) f.status.nodes)
  | .readLoad => .report f (f.loads.usage s.now).toJson
  | .resetBreaker => .ofEnqueuing [] (f.enqueue s.loopRuns .resetBreaker)
  | .reload =>
    match f.proposal s.files s.environment s.configPath with
    | .error why => .failed (.refused why)
    | .ok c =>
      .ofEnqueuing [("cluster_name", .str c.clusterName)] (f.enqueue s.loopRuns (.reconfigure c))
  | .readMetrics =>
    .done { code := 200, content := .metrics (Exposition.ofCluster f.status (f.loads.usage s.now)) }
      f

/-- What becomes of a request. -/
def outcome (s : Setting) (f : Feeds) (r : Request) : Outcome :=
  match routes.filter (·.path == r.path) with
  | [] => .failed .unknownPath
  | there =>
    match there.find? (·.methods.contains r.method) with
    | none => .failed (.unknownMethod (there.flatMap (·.methods)))
    | some route => perform s f r route.operation

/-- The response to a request and the feeds after it; no response while it waits. -/
def handle (s : Setting) (f : Feeds) (r : Request) : Option Response × Feeds :=
  let trim (response : Response) := { response with headOnly := r.method == "HEAD" }
  match outcome s f r with
  | .done response f => (some (trim response), f)
  | .failed why => (some (trim why.response), f)
  | .waiting => (none, f)

end ClusterScaler.Api
