import ClusterScaler.Proofs.Config.Templates
import ClusterScaler.Proofs.Hashing.Reordering

/-!
# What a launch hash tells apart

A launch hash covers the node type, the template up to the order of members, the login settings, and the
amounts of the resources as far as they are finite: every other amount is written as `null`. Of two
accepted configurations exactly what differs in one of these has another launch hash
(`hash_eq_iff_alike`), provided that the digest has no collision on the two texts. An infinite amount and
one that is not a number are accepted, and have the same hash (`hash_eq_unbounded`).
-/

set_option autoImplicit false

namespace ClusterScaler

open Json Decode

/-- The amounts as far as they are finite. -/
def Resources.written (r : Resources Float) : Table String (Option Float) :=
  r.amounts.mapValues fun _ x => if x.isFinite then some x else none

theorem Json.ofTable_injective {α : Type} {f : α → Json} (hf : ∀ a b, f a = f b → a = b)
    {t t' : Table String α} (h : Json.ofTable f t = Json.ofTable f t') : t = t' := by
  refine Table.ext (List.map_inj_right (f := fun e : String × α => (e.1, f e.2)) ?_ |>.mp ?_)
  · intro e e' he
    exact Prod.ext (Prod.mk.inj he).1 (hf _ _ (Prod.mk.inj he).2)
  · exact Json.obj.inj h

theorem Json.optStr_injective {s s' : Option String} (h : optStr s = optStr s') : s = s' := by
  cases s <;> cases s' <;> simp_all [optStr]

/-- A finite amount, or `null`. -/
def Json.optDouble : Option Float → Json
  | none => .null
  | some x => .double x

theorem Json.optDouble_injective {x y : Option Float} (h : optDouble x = optDouble y) : x = y := by
  cases x <;> cases y <;> simp_all [optDouble, Json.double]

theorem AuthConfig.toJson_injective {a a' : AuthConfig} (h : a.toJson = a'.toJson) : a = a' := by
  rw [toJson_eq, toJson_eq] at h
  simp only [Json.obj.injEq, List.cons.injEq, Prod.mk.injEq, Json.nat, Json.num.injEq,
    JsonNumber.natural.injEq, Json.str.injEq, true_and, and_true] at h
  obtain ⟨hport, hkey, huser⟩ := h
  cases a
  cases a'
  dsimp only at hport hkey huser
  rw [hport, Json.optStr_injective hkey, huser]

theorem AuthConfig.settled_canonical_toJson (a : AuthConfig) :
    settled a.toJson.canonical = a.toJson := by
  have hkey : (optStr a.sshPrivateKey).canonical = optStr a.sshPrivateKey ∧
      settled (optStr a.sshPrivateKey) = optStr a.sshPrivateKey := by
    cases a.sshPrivateKey <;> exact ⟨rfl, rfl⟩
  rw [toJson_eq, canonical_obj_of_sorted (by exact sorted_keys), settled_obj]
  simp [hkey, Json.nat, Json.canonical, settled]

theorem Resources.settled_canonical_toJson (r : Resources Float) :
    settled r.toJson.canonical = Json.ofTable optDouble r.written := by
  have hsorted : ((r.amounts.entries.map fun e => (e.1, Json.double e.2)).map (·.1)).Pairwise
      (· < ·) := List.pairwise_map.mpr (List.pairwise_map.mpr r.amounts.sorted)
  have hamount : ∀ x : Float, settled (Json.double x).canonical =
      optDouble (if x.isFinite then some x else none) := by
    intro x
    have hcanonical : (Json.double x).canonical = .num (.double x) := rfl
    rw [hcanonical, settled]
    split <;> rfl
  unfold Resources.toJson Json.ofTable Resources.written Table.mapValues
  rw [canonical_obj_of_sorted hsorted, settled_obj, List.map_map, List.map_map, List.map_map]
  exact congrArg Json.obj (List.map_congr_left fun e _ => congrArg (Prod.mk e.1) (hamount e.2))

namespace LaunchConfig

variable {l l' : LaunchConfig}

/-- The same launch configuration up to the order of the members of the template, and up to amounts
that are not finite. -/
structure Alike (l l' : LaunchConfig) : Prop where
  nodeType : l.nodeType = l'.nodeType
  nodeConfig : (Json.obj l.nodeConfig).Reordered (.obj l'.nodeConfig)
  resources : l.resources.written = l'.resources.written
  auth : l.auth = l'.auth

/-- The template of a launch configuration has distinct keys and finite numbers. -/
structure Settled (l : LaunchConfig) : Prop where
  distinct : l.Distinct
  finite : (Json.obj l.nodeConfig).Finite

theorem settled_canonical_toJson (h : l.Settled) : settled l.toJson.canonical =
    .obj [("auth", l.auth.toJson), ("node_config", (Json.obj l.nodeConfig).canonical),
      ("node_type", .str l.nodeType), ("resources", Json.ofTable optDouble l.resources.written)] := by
  have htemplate : (Json.object l.nodeConfig).canonical = (Json.obj l.nodeConfig).canonical :=
    (canonical_eq_of_reordered (reordered_object h.distinct) h.distinct).symm
  rw [toJson_eq, canonical_obj_of_sorted (by exact sorted_keys), settled_obj]
  simp only [List.map_cons, List.map_nil, AuthConfig.settled_canonical_toJson, htemplate,
    settled_eq_self h.finite.canonical, Resources.settled_canonical_toJson]
  rfl

/-- Two texts that are digested are the same exactly if the launch configurations are alike. -/
theorem encoding_eq_iff (h : l.Settled) (h' : l'.Settled) :
    l.encoding = l'.encoding ↔ l.Alike l' := by
  have hvalue : l.encoding = l'.encoding ↔
      settled l.toJson.canonical = settled l'.toJson.canonical := by
    unfold encoding
    rw [← compact_settled l.toJson.canonical, ← compact_settled l'.toJson.canonical]
    exact ⟨compact_injective (finite_settled _) (finite_settled _), congrArg compact⟩
  rw [hvalue, settled_canonical_toJson h, settled_canonical_toJson h']
  simp only [Json.obj.injEq, List.cons.injEq, Prod.mk.injEq, Json.str.injEq, true_and, and_true]
  constructor
  · rintro ⟨hauth, htemplate, htype, hresources⟩
    exact ⟨htype, (reordered_iff_canonical_eq h.distinct h'.distinct).mpr htemplate,
      ofTable_injective (fun _ _ => optDouble_injective) hresources,
      AuthConfig.toJson_injective hauth⟩
  · rintro ⟨htype, htemplate, hresources, hauth⟩
    rw [htype, hresources, hauth, canonical_eq_of_reordered htemplate h.distinct]
    exact ⟨rfl, rfl, rfl, rfl⟩

theorem settled_of_ofText {files : FileStore} {text name : String} {c : ClusterConfig}
    (hc : ClusterConfig.ofText files text = .ok c) (hl : ofNodeType? c name = some l) :
    l.Settled := by
  obtain ⟨t, ht, rfl⟩ := Option.map_eq_some_iff.mp hl
  have htemplate := ClusterConfig.templateSettled_of_ofText hc ht
  exact ⟨htemplate.distinct, htemplate.finite⟩

/-- Amounts of which the ones are finite are the same if they are the same as far as they are finite. -/
theorem resources_eq_of_written_eq {r r' : Resources Float}
    (hfinite : ∀ e ∈ r.toList, e.2.isFinite = true) (h : r.written = r'.written) : r = r' := by
  have hamounts : r.amounts = r'.amounts := by
    refine Table.ext_get? fun k => ?_
    have hkey := congrArg (Table.get? · k) h
    unfold Resources.written at hkey
    simp only [Table.get?_mapValues] at hkey
    cases hx : r.amounts.get? k with
    | none =>
      rw [hx] at hkey
      exact (Option.map_eq_none_iff.mp hkey.symm).symm
    | some x =>
      have hxfinite := hfinite (k, x) (Table.get?_eq_some_iff.mp hx)
      rw [hx, Option.map_some, if_pos hxfinite] at hkey
      obtain ⟨y, hy, heq⟩ := Option.map_eq_some_iff.mp hkey.symm
      split at heq
      · rw [hy, Option.some.inj heq]
      · cases heq
  cases r
  cases r'
  exact congrArg _ hamounts

theorem Alike.reordered (h : l.Alike l') (hfinite : ∀ e ∈ l.resources.toList, e.2.isFinite = true) :
    l.Reordered l' :=
  ⟨h.nodeType, h.nodeConfig, resources_eq_of_written_eq hfinite h.resources, h.auth⟩

theorem Reordered.alike (h : l.Reordered l') : l.Alike l' :=
  ⟨h.nodeType, h.nodeConfig, congrArg Resources.written h.resources, h.auth⟩

end LaunchConfig

open LaunchConfig

/-- If the digest has no collision on the two texts, launch configurations of accepted configurations
are digested alike and have one hash exactly if they are alike. If the amounts of one of them are finite,
that is to say that they are the same up to the order of members. -/
theorem hash_eq_iff_alike {files files' : FileStore} {text text' name name' : String}
    {c c' : ClusterConfig} {l l' : LaunchConfig} (hc : ClusterConfig.ofText files text = .ok c)
    (hc' : ClusterConfig.ofText files' text' = .ok c') (hl : ofNodeType? c name = some l)
    (hl' : ofNodeType? c' name' = some l')
    (hcollision : Sha256.hex l.encoding.toUTF8 = Sha256.hex l'.encoding.toUTF8 →
      l.encoding.toUTF8 = l'.encoding.toUTF8) :
    (l.encoding.toUTF8 = l'.encoding.toUTF8 ↔ l.Alike l') ∧ (l.hash = l'.hash ↔ l.Alike l') ∧
      ((∀ e ∈ l.resources.toList, e.2.isFinite = true) → (l.Alike l' ↔ l.Reordered l')) := by
  have hencoding : l.encoding.toUTF8 = l'.encoding.toUTF8 ↔ l.Alike l' := by
    rw [← encoding_eq_iff (settled_of_ofText hc hl) (settled_of_ofText hc' hl')]
    exact String.toByteArray_inj
  refine ⟨hencoding, ?_, fun hfinite => ⟨fun h => h.reordered hfinite, Reordered.alike⟩⟩
  rw [← hencoding, LaunchConfig.hash, LaunchConfig.hash, ConfigHash.mk.injEq]
  exact ⟨hcollision, congrArg Sha256.hex⟩

/-- A configuration text with an amount and a template for its only node type. -/
def amountText (amount template : String) : String :=
  "cluster_name = \"it\"\nhead_node_type = \"head\"\n[provider]\ntype = \"fake\"\n" ++
    "[node_types.head]\nmax_workers = 1\nresources = \x7b CPU = " ++ amount ++ " \x7d\n" ++
      "node_config = " ++ template ++ "\n"

/-- A text with an infinite amount. -/
def infiniteText : String :=
  amountText "inf" "\x7b b = [1.5, -2], a = \x7b y = \"i\", x = true \x7d \x7d"

/-- A text with an amount that is not a number, and the members of the template in another order. -/
def undefinedText : String :=
  amountText "nan" "\x7b a = \x7b x = true, y = \"i\" \x7d, b = [1.5, -2] \x7d"

/-- What is digested for the only node type of either text. -/
def unboundedEncoding : String :=
  "\x7b\"auth\":\x7b\"ssh_port\":22,\"ssh_private_key\":null,\"ssh_user\":\"root\"\x7d," ++
    "\"node_config\":\x7b\"a\":\x7b\"x\":true,\"y\":\"i\"\x7d,\"b\":[1.5,-2]\x7d," ++
      "\"node_type\":\"head\",\"resources\":\x7b\"CPU\":null\x7d\x7d"

/-- The launch configuration of the head type of a text, if it is accepted. -/
def headLaunch? (text : String) : Option LaunchConfig :=
  (ClusterConfig.ofText .empty text).toOption.bind (ofNodeType? · "head")

theorem exists_of_headLaunch? {text encoding : String} {undefined : List Bool}
    (h : (headLaunch? text).map (fun l => (l.encoding, l.resources.toList.map (·.2.isNaN))) =
      some (encoding, undefined)) :
    ∃ c l, ClusterConfig.ofText .empty text = .ok c ∧ ofNodeType? c "head" = some l ∧
      l.encoding = encoding ∧ l.resources.toList.map (·.2.isNaN) = undefined := by
  obtain ⟨l, hl, hfacts⟩ := Option.map_eq_some_iff.mp h
  obtain ⟨c, hc, hl⟩ := Option.bind_eq_some_iff.mp hl
  obtain ⟨hencoding, hundefined⟩ := Prod.mk.inj hfacts
  exact ⟨c, l, eq_ok_of_toOption hc, hl, hencoding, hundefined⟩

theorem exists_infinite : ∃ c l, ClusterConfig.ofText .empty infiniteText = .ok c ∧
    ofNodeType? c "head" = some l ∧ l.encoding = unboundedEncoding ∧
      l.resources.toList.map (·.2.isNaN) = [false] :=
  exists_of_headLaunch? (by decide +kernel)

theorem exists_undefined : ∃ c l, ClusterConfig.ofText .empty undefinedText = .ok c ∧
    ofNodeType? c "head" = some l ∧ l.encoding = unboundedEncoding ∧
      l.resources.toList.map (·.2.isNaN) = [true] :=
  exists_of_headLaunch? (by decide +kernel)

/-- Both texts are accepted, and their launch configurations are alike. -/
theorem hash_eq_iff_alike_unbounded :
    ∃ c c' l l', ClusterConfig.ofText .empty infiniteText = .ok c ∧
      ClusterConfig.ofText .empty undefinedText = .ok c' ∧ ofNodeType? c "head" = some l ∧
      ofNodeType? c' "head" = some l' ∧ l.Alike l' ∧ l.hash = l'.hash := by
  obtain ⟨c, l, hc, hl, hencoding, -⟩ := exists_infinite
  obtain ⟨c', l', hc', hl', hencoding', -⟩ := exists_undefined
  have hsame : l.encoding.toUTF8 = l'.encoding.toUTF8 := by rw [hencoding, hencoding']
  obtain ⟨hdigested, hhash, -⟩ := hash_eq_iff_alike hc hc' hl hl' fun _ => hsame
  have halike : l.Alike l' := hdigested.mp hsame
  exact ⟨c, c', l, l', hc, hc', hl, hl', halike, hhash.mpr halike⟩

/-- An infinite amount and one that is not a number are told apart neither by what is digested nor by
the hash. -/
theorem hash_eq_unbounded :
    ∃ c c' l l', ClusterConfig.ofText .empty infiniteText = .ok c ∧
      ClusterConfig.ofText .empty undefinedText = .ok c' ∧ ofNodeType? c "head" = some l ∧
      ofNodeType? c' "head" = some l' ∧ l.resources ≠ l'.resources ∧
      l.encoding.toUTF8 = l'.encoding.toUTF8 ∧ l.hash = l'.hash := by
  obtain ⟨c, l, hc, hl, hencoding, hnumber⟩ := exists_infinite
  obtain ⟨c', l', hc', hl', hencoding', hnumber'⟩ := exists_undefined
  refine ⟨c, c', l, l', hc, hc', hl, hl', fun hresources => ?_, by rw [hencoding, hencoding'], ?_⟩
  · rw [hresources, hnumber'] at hnumber
    cases hnumber
  · rw [LaunchConfig.hash, LaunchConfig.hash, hencoding, hencoding']

end ClusterScaler
