import ClusterScaler.Hashing.Launch
import ClusterScaler.Proofs.Json.Ordering

/-!
# Launch hashes forget the order of members

A launch hash is the digest of a canonical value, so it is the same for all launch configurations whose
templates are the same up to the order of members (`canonical_forgets_order`).
-/

set_option autoImplicit false

namespace ClusterScaler

theorem AuthConfig.sorted_keys : ["ssh_port", "ssh_private_key", "ssh_user"].Pairwise (· < ·) := by
  decide

theorem AuthConfig.toJson_eq (a : AuthConfig) :
    a.toJson = .obj [("ssh_port", .nat a.sshPort), ("ssh_private_key", Json.optStr a.sshPrivateKey),
      ("ssh_user", .str a.sshUser)] :=
  congrArg Json.obj (Table.entries_ofList_of_perm (List.reverse_perm _).symm sorted_keys)

namespace LaunchConfig

variable {l l' : LaunchConfig}

theorem sorted_keys : ["auth", "node_config", "node_type", "resources"].Pairwise (· < ·) := by
  decide

theorem toJson_eq (l : LaunchConfig) :
    l.toJson = .obj [("auth", l.auth.toJson), ("node_config", Json.object l.nodeConfig),
      ("node_type", .str l.nodeType), ("resources", l.resources.toJson)] := by
  have hfront := List.perm_append_singleton ("auth", l.auth.toJson)
    [("node_type", Json.str l.nodeType), ("node_config", Json.object l.nodeConfig),
      ("resources", l.resources.toJson)]
  exact congrArg Json.obj
    (Table.entries_ofList_of_perm (hfront.trans (.cons _ (.swap ..))) sorted_keys)

/-- No object of the template, at any depth, has two members with one key. -/
def Distinct (l : LaunchConfig) : Prop := (Json.obj l.nodeConfig).Distinct

/-- The same launch configuration up to the order of the members of the template. -/
structure Reordered (l l' : LaunchConfig) : Prop where
  nodeType : l.nodeType = l'.nodeType
  nodeConfig : (Json.obj l.nodeConfig).Reordered (.obj l'.nodeConfig)
  resources : l.resources = l'.resources
  auth : l.auth = l'.auth

theorem reordered_object (h : l.Distinct) :
    (Json.obj l.nodeConfig).Reordered (Json.object l.nodeConfig) :=
  .members (Table.entries_ofList_perm (Json.distinct_obj.mp h).1).symm

theorem distinct_toJson (h : l.Distinct) : l.toJson.Distinct := by
  have hkey : (Json.optStr l.auth.sshPrivateKey).Distinct := by
    cases l.auth.sshPrivateKey with
    | none => exact .null
    | some key => exact .str key
  have hauth : l.auth.toJson.Distinct := by
    rw [AuthConfig.toJson_eq]
    simp [hkey, Json.nat]
  have hresources : l.resources.toJson.Distinct := by
    refine .obj ?_ fun m hm => ?_
    · rw [List.map_map]
      exact l.resources.amounts.keys_nodup
    · obtain ⟨e, -, rfl⟩ := List.mem_map.mp hm
      exact .num _
  rw [toJson_eq]
  simp [hauth, (reordered_object h).distinct h, hresources]

theorem Reordered.toJson (h : l.Reordered l') (hl : l.Distinct) :
    l.toJson.Reordered l'.toJson := by
  have hl' : l'.Distinct := h.nodeConfig.distinct hl
  have hobject : (Json.object l.nodeConfig).Reordered (Json.object l'.nodeConfig) :=
    (reordered_object hl).symm.trans (h.nodeConfig.trans (reordered_object hl'))
  rw [toJson_eq, toJson_eq, h.nodeType, h.resources, h.auth]
  exact .member [("auth", l'.auth.toJson)] _ "node_config" hobject

end LaunchConfig

open Json

/-- Two values, built anew in maps that keep their members in whichever way, are the same exactly if
they were the same up to the order of members; then they are printed alike. To build a value anew
leaves it the same up to the order of members, and to do it again changes nothing. So the launch hash
is the same for launch configurations that are the same up to the order of members, and for whatever
order the members of a launch configuration had when it was printed. -/
theorem canonical_forgets_order {j j' : Json} {l l' : LaunchConfig} (hj : j.Distinct)
    (hj' : j'.Distinct) (hl : l.Distinct) (o o' : MemberOrder) :
    (j.Reordered j' ↔ j.rebuild o = j'.rebuild o') ∧
    (j.Reordered j' → (j.rebuild o).compact = (j'.rebuild o').compact) ∧
    ((j.rebuild o).rebuild o' = j.rebuild o ∧ j.Reordered (j.rebuild o) ∧
      j.rebuild o = j.canonical) ∧
    (l.Reordered l' → l.hash = l'.hash) ∧
    ∀ v, l.toJson.Reordered v → Sha256.hex (v.rebuild o).compact.toUTF8 = l.hash.hex := by
  have hiff : j.Reordered j' ↔ j.rebuild o = j'.rebuild o' := by
    rw [rebuild_eq_canonical o hj, rebuild_eq_canonical o' hj', reordered_iff_canonical_eq hj hj']
  have hsame := reordered_canonical hj
  refine ⟨hiff, fun h => congrArg compact (hiff.mp h), ?_, fun h => ?_, fun v hv => ?_⟩
  · rw [rebuild_eq_canonical o hj, rebuild_eq_canonical o' (hsame.distinct hj)]
    exact ⟨canonical_canonical j, hsame, rfl⟩
  · have hvalue : l.toJson.canonical = l'.toJson.canonical :=
      canonical_eq_of_reordered (h.toJson hl) (LaunchConfig.distinct_toJson hl)
    unfold LaunchConfig.hash LaunchConfig.encoding
    rw [hvalue]
  · have hdistinct := LaunchConfig.distinct_toJson hl
    rw [rebuild_eq_canonical o (hv.distinct hdistinct), ← canonical_eq_of_reordered hv hdistinct]
    rfl

/-- An object inside an array inside an object. -/
def nestedValue : Json :=
  .obj [("b", .arr [.null, .obj [("y", .nat 1), ("x", .str "")]]), ("a", .bool true)]

/-- The same with the members of both objects exchanged. -/
def nestedReordered : Json :=
  .obj [("a", .bool true), ("b", .arr [.null, .obj [("x", .str ""), ("y", .nat 1)]])]

/-- Two launch configurations with these values as templates. -/
def nestedLaunch (template : List (String × Json)) : LaunchConfig := ⟨"head", template, ∅, {}⟩

theorem nestedValue_reordered : nestedValue.Reordered nestedReordered := by
  refine .trans (.members (.swap ..)) (.member [("a", .bool true)] [] "b" ?_)
  exact .item [.null] [] (.members (.swap ..))

theorem canonical_forgets_order_nested :
    nestedValue.Distinct ∧ nestedReordered.Distinct ∧
      (nestedLaunch [("t", nestedValue)]).Distinct ∧
      nestedValue.rebuild .insertion = nestedReordered.rebuild .key ∧
      (nestedLaunch [("t", nestedValue)]).hash = (nestedLaunch [("t", nestedReordered)]).hash := by
  have hj : nestedValue.Distinct := by simp [nestedValue, nat]
  have hj' : nestedReordered.Distinct := by simp [nestedReordered, nat]
  have hl : (nestedLaunch [("t", nestedValue)]).Distinct := by
    simp [nestedLaunch, LaunchConfig.Distinct, hj]
  have hreordered : (nestedLaunch [("t", nestedValue)]).Reordered
      (nestedLaunch [("t", nestedReordered)]) :=
    ⟨rfl, .member [] [] "t" nestedValue_reordered, rfl, rfl⟩
  obtain ⟨hiff, -, -, hhash, -⟩ := canonical_forgets_order hj hj' hl .insertion .key
  exact ⟨hj, hj', hl, hiff.mp nestedValue_reordered, hhash hreordered⟩

end ClusterScaler
