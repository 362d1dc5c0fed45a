import ClusterScaler.Config.Encode
import ClusterScaler.Digest.Sha256
import ClusterScaler.Json.Printer

/-!
# Launch hashes

The launch hash of a node type covers everything that decides how its nodes are created; a node
with another hash has to be replaced. It is the digest of a JSON text whose objects have their
members in key order, so it does not depend on the order in which settings were written.
-/

set_option autoImplicit false

namespace ClusterScaler

/-- A fingerprint in hexadecimal. -/
structure ConfigHash where
  hex : String
  deriving DecidableEq, Repr, Inhabited

/-- The first twelve bytes of a hash, all of it if it is shorter; `none` where they would end
inside a character. -/
def ConfigHash.short? (h : ConfigHash) : Option String :=
  let bytes := h.hex.toUTF8
  String.fromUTF8? (bytes.extract 0 (min bytes.size 12))

/-- What determines how a node is created. -/
structure LaunchConfig where
  nodeType : String
  nodeConfig : List (String × Json)
  resources : Resources Float
  auth : AuthConfig

namespace LaunchConfig

/-- What determines how the nodes of a configured type are created. -/
def ofNodeType? (c : ClusterConfig) (name : String) : Option LaunchConfig :=
  (c.nodeType? name).map (fun t => ⟨name, t.nodeConfig, t.resources, c.auth⟩)

/-- The launch configuration as a value. -/
def toJson (l : LaunchConfig) : Json :=
  Json.object [("node_type", .str l.nodeType), ("node_config", Json.object l.nodeConfig),
    ("resources", l.resources.toJson), ("auth", l.auth.toJson)]

/-- The text that is hashed. -/
def encoding (l : LaunchConfig) : String := l.toJson.canonical.compact

/-- The launch hash. -/
def hash (l : LaunchConfig) : ConfigHash := ⟨Sha256.hex l.encoding.toUTF8⟩

end LaunchConfig

end ClusterScaler
