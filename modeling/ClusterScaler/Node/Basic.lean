import ClusterScaler.Table

/-!
# Nodes and their tags

A node is known by an identifier that its provider hands out and by the tags attached to it there.
The keys below are the ones the control loop writes and reads.
-/

set_option autoImplicit false

namespace ClusterScaler

/-- The identifier of a node, unique among the nodes of a provider. -/
structure NodeId where
  text : String
  deriving DecidableEq, Repr, Inhabited

instance : LT NodeId := ⟨fun a b => a.text < b.text⟩

instance (a b : NodeId) : Decidable (a < b) := inferInstanceAs (Decidable (a.text < b.text))

/-- Identifiers are ordered as texts. -/
instance : KeyOrder NodeId where
  decLt := inferInstance
  lt_irrefl a := String.lt_irrefl a.text
  lt_trans h₁ h₂ := String.lt_trans h₁ h₂
  eq_of_not_lt := fun {a b} h₁ h₂ => by
    cases a; cases b
    exact congrArg NodeId.mk (KeyOrder.eq_of_not_lt (κ := String) h₁ h₂)

/-- The tags of a node. -/
abbrev Tags := Table String String

namespace Tags

/-- The cluster a node belongs to. -/
def clusterName : String := "cluster-name"

/-- The configured type of a node. -/
def nodeType : String := "node-type"

/-- The name a node was launched under. -/
def nodeName : String := "node-name"

/-- How far the bootstrap of a node has come. -/
def nodeStatus : String := "node-status"

/-- The launch hash a node was created with. -/
def launchConfig : String := "launch-config-hash"

/-- The files hash that was last applied to a node. -/
def fileSync : String := "file-sync-hash"

/-- Whether `tags` holds every entry of `filter`. -/
def satisfies (tags filter : Tags) : Bool :=
  filter.entries.all (fun e => tags.get? e.1 == some e.2)

end Tags

/-- The steps of a node's bootstrap, as they are written into its status tag. -/
inductive BootstrapStatus where
  | uninitialized
  | waitingForNode
  | syncingFiles
  | settingUp
  | upToDate
  | updateFailed
  deriving DecidableEq, Repr

/-- The tag value of a bootstrap step. -/
def BootstrapStatus.text : BootstrapStatus → String
  | .uninitialized => "uninitialized"
  | .waitingForNode => "waiting-for-node"
  | .syncingFiles => "syncing-files"
  | .settingUp => "setting-up"
  | .upToDate => "up-to-date"
  | .updateFailed => "update-failed"

end ClusterScaler
