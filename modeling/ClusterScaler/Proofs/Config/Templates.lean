import ClusterScaler.Config.Loading
import ClusterScaler.Proofs.Json.Uniqueness
import ClusterScaler.Proofs.Table.Reading

/-!
# Templates of accepted configurations

The value of a configuration text has no object with two members of one key, and this holds of
everything that is read out of it. A template is settled as it is read: numbers that are not finite
become `null`, which is also how they would be written. So the template of a node type of an accepted
configuration has distinct keys and finite numbers (`ClusterConfig.templateSettled_of_ofText`).
-/

set_option autoImplicit false

namespace ClusterScaler

open Json

theorem Json.distinct_object {members : List (String × Json)} (h : ∀ m ∈ members, m.2.Distinct) :
    (object members).Distinct :=
  .obj (Table.keys_nodup _) fun _ hm => h _ (Table.mem_of_mem_entries_ofList hm)

namespace Toml

mutual

/-- The value of a configuration text has distinct keys in every object. -/
theorem distinct_toJson : ∀ t : Toml, t.toJson.Distinct
  | .str s => .str s
  | .int n => .num _
  | .float x => .num _
  | .bool b => .bool b
  | .time text => by simp [toJson]
  | .array items => .arr (distinct_itemsToJson items)
  | .table _ entries => distinct_object (distinct_entriesToJson entries)
  | .tables latestFirst =>
    .arr fun j hj => distinct_tablesToJson latestFirst j (List.mem_reverse.mp hj)

theorem distinct_itemsToJson : ∀ items : List Toml, ∀ j ∈ itemsToJson items, j.Distinct
  | [] => fun _ hj => nomatch hj
  | t :: rest => List.forall_mem_cons.mpr ⟨distinct_toJson t, distinct_itemsToJson rest⟩

theorem distinct_entriesToJson :
    ∀ entries : List (String × Toml), ∀ m ∈ entriesToJson entries, m.2.Distinct
  | [] => fun _ hm => nomatch hm
  | (_, t) :: rest => List.forall_mem_cons.mpr ⟨distinct_toJson t, distinct_entriesToJson rest⟩

theorem distinct_tablesToJson :
    ∀ tables : List (List (String × Toml)), ∀ j ∈ tablesToJson tables, j.Distinct
  | [] => fun _ hj => nomatch hj
  | entries :: rest => List.forall_mem_cons.mpr
    ⟨distinct_object (distinct_entriesToJson entries), distinct_tablesToJson rest⟩

end

end Toml

namespace Decode

variable {j : Json} {members : List (String × Json)}

theorem settledItems_eq_map (items : List Json) : settledItems items = items.map settled := by
  induction items with
  | nil => rfl
  | cons j items ih => rw [settledItems, ih, List.map_cons]

theorem settledMembers_eq_map (members : List (String × Json)) :
    settledMembers members = members.map (fun m => (m.1, settled m.2)) := by
  induction members with
  | nil => rfl
  | cons m members ih => rw [settledMembers, ih, List.map_cons]

theorem settled_arr {items : List Json} : settled (.arr items) = .arr (items.map settled) := by
  rw [settled, settledItems_eq_map]

theorem settled_obj : settled (.obj members) = .obj (members.map fun m => (m.1, settled m.2)) := by
  rw [settled, settledMembers_eq_map]

/-- A value that was settled has finite numbers. -/
theorem finite_settled (j : Json) : (settled j).Finite := by
  induction j using Json.induction with
  | null | bool | str => simp [settled]
  | num n =>
    cases n with
    | natural n => exact .num trivial
    | negative n => exact .num trivial
    | double x =>
      rw [settled]
      split
      · next h => exact .num h
      · exact .null
  | arr items ih =>
    rw [settled_arr, finite_arr]
    exact List.forall_mem_map.mpr ih
  | obj members ih =>
    rw [settled_obj, finite_obj]
    exact List.forall_mem_map.mpr ih

/-- Values with finite numbers are settled already. -/
theorem settled_eq_self (h : j.Finite) : settled j = j := by
  induction h with
  | null | bool | str => rfl
  | @num n hn =>
    cases n with
    | natural n => rfl
    | negative n => rfl
    | double x => exact if_pos hn
  | arr _ ih =>
    rw [settled_arr]
    exact congrArg Json.arr ((List.map_congr_left ih).trans (List.map_id _))
  | obj _ ih =>
    rw [settled_obj]
    exact congrArg Json.obj
      ((List.map_congr_left fun m hm => congrArg (Prod.mk m.1) (ih m hm)).trans (List.map_id _))

theorem distinct_settled (h : j.Distinct) : (settled j).Distinct := by
  induction h with
  | null | bool | str => simp [settled]
  | num n =>
    cases n with
    | natural n => exact .num _
    | negative n => exact .num _
    | double x =>
      rw [settled]
      split
      · exact .num _
      · exact .null
  | arr _ ih =>
    rw [settled_arr, distinct_arr]
    exact List.forall_mem_map.mpr ih
  | obj hkeys _ ih =>
    rw [settled_obj, distinct_obj, keys_mapMembers]
    exact ⟨hkeys, List.forall_mem_map.mpr ih⟩

/-- A number that is not finite is written as `null`, which it becomes as it is settled. -/
theorem compact_settled (j : Json) : (settled j).compact = j.compact := by
  induction j using Json.induction with
  | null | bool | str => rfl
  | num n =>
    cases n with
    | natural n => rfl
    | negative n => rfl
    | double x =>
      rw [settled]
      split
      · rfl
      · next h =>
        rw [compact.eq_3, JsonNumber.text_of_not_finite (Bool.eq_false_iff.mpr h)]
        rfl
  | arr items ih =>
    have hitems : (items.map settled).map compact = items.map compact := by
      rw [List.map_map]
      exact List.map_congr_left ih
    rw [settled_arr, compact, compact, compactItems_eq_map, compactItems_eq_map, hitems]
  | obj members ih =>
    have hmembers : (members.map fun m => (m.1, settled m.2)).map
        (fun m => stringText m.1 ++ ":" ++ m.2.compact) =
        members.map (fun m => stringText m.1 ++ ":" ++ m.2.compact) := by
      rw [List.map_map]
      exact List.map_congr_left fun m hm => congrArg (stringText m.1 ++ ":" ++ ·) (ih m hm)
    rw [settled_obj, compact, compact, compactMembers_eq_map, compactMembers_eq_map, hmembers]

/-- A setting that is looked up is a part of the value. -/
theorem distinct_find {names : List String} {g : Group} {name : String} {v : Json}
    (hg : group? names j = some g) (hj : j.Distinct) (hv : g.find name = some v) : v.Distinct := by
  cases j with
  | obj members =>
    cases hg
    obtain ⟨m, hm, rfl⟩ := Option.map_eq_some_iff.mp hv
    exact (distinct_obj.mp hj).2 m (List.mem_of_find?_eq_some hm)
  | arr items =>
    cases hg
    obtain ⟨m, hm, rfl⟩ := Option.map_eq_some_iff.mp hv
    exact distinct_arr.mp hj m.2 (List.of_mem_zip (List.mem_of_find?_eq_some hm)).2
  | _ => cases hg

theorem exists_of_withDefault {α : Type} {g : Group} {name : String} {value? : Json → Option α}
    {a d : α} (h : g.withDefault name value? d = some a) :
    a = d ∨ ∃ v, g.find name = some v ∧ value? v = some a := by
  unfold Group.withDefault at h
  split at h
  · exact .inl (Option.some.inj h).symm
  · next v hv => exact .inr ⟨v, hv, h⟩

/-- Whatever comes out of a list that is read in turn was read from one of its members. -/
theorem exists_of_mapM_eq_some {α β : Type} {f : α → Option β} {as : List α} {bs : List β} {b : β}
    (h : as.mapM f = some bs) (hb : b ∈ bs) : ∃ a ∈ as, f a = some b := by
  induction as generalizing bs with
  | nil =>
    cases h
    cases hb
  | cons a as ih =>
    rw [List.mapM_cons, Option.bind_eq_bind, Option.bind_eq_some_iff] at h
    obtain ⟨b', ha, h⟩ := h
    rw [Option.bind_eq_bind, Option.bind_eq_some_iff] at h
    obtain ⟨rest, hrest, h⟩ := h
    cases h
    rcases List.mem_cons.mp hb with rfl | hb
    · exact ⟨a, List.mem_cons_self, ha⟩
    · obtain ⟨a', hmem, ha'⟩ := ih hrest hb
      exact ⟨a', List.mem_cons_of_mem _ hmem, ha'⟩

/-- The entries of a table are read from the members of an object. -/
theorem exists_member_of_table? {α : Type} {value? : Json → Option α} {t : Table String α}
    (h : table? value? j = some t) {e : String × α} (he : e ∈ t.entries) :
    ∃ members, j = .obj members ∧ ∃ m ∈ members, value? m.2 = some e.2 := by
  cases j with
  | obj members =>
    simp only [table?, Option.bind_eq_bind, Option.bind_eq_some_iff, Option.pure_def,
      Option.some.injEq] at h
    obtain ⟨entries, hentries, rfl⟩ := h
    obtain ⟨m, hm, hread⟩ := exists_of_mapM_eq_some hentries (Table.mem_of_mem_entries_ofList he)
    obtain ⟨v, hv, hentry⟩ := Option.bind_eq_some_iff.mp hread
    cases hentry
    exact ⟨members, rfl, m, hm, hv⟩
  | _ => cases h

end Decode

open Decode

/-- A template without two members of one key, with finite numbers. -/
structure NodeTypeConfig.TemplateSettled (t : NodeTypeConfig) : Prop where
  distinct : (Json.obj t.nodeConfig).Distinct
  finite : (Json.obj t.nodeConfig).Finite

theorem NodeTypeConfig.templateSettled_of_ofJson? {j : Json} {t : NodeTypeConfig}
    (h : NodeTypeConfig.ofJson? j = some t) (hj : j.Distinct) : t.TemplateSettled := by
  unfold NodeTypeConfig.ofJson? at h
  simp only [Option.bind_eq_bind, Option.bind_eq_some_iff, Option.pure_def, Option.some.injEq] at h
  obtain ⟨g, hg, _, -, _, -, _, -, template, htemplate, _, -, _, -, _, -, rfl⟩ := h
  rcases exists_of_withDefault htemplate with rfl | ⟨v, hv, hmembers⟩
  · exact ⟨by simp, by simp⟩
  · cases v with
    | obj members =>
      cases hmembers
      exact ⟨distinct_settled (distinct_find hg hj hv), finite_settled (.obj members)⟩
    | _ => cases hmembers

theorem ClusterConfig.templateSettled_of_ofJson? {j : Json} {c : ClusterConfig}
    (h : ClusterConfig.ofJson? j = some c) (hj : j.Distinct) {e : String × NodeTypeConfig}
    (he : e ∈ c.nodeTypes.entries) : e.2.TemplateSettled := by
  unfold ClusterConfig.ofJson? at h
  simp only [Option.bind_eq_bind, Option.bind_eq_some_iff, Option.pure_def, Option.some.injEq] at h
  obtain ⟨g, hg, _, -, _, -, _, -, _, -, _, -, _, -, _, -, _, -, types, htypes, rfl⟩ := h
  obtain ⟨v, hv, htable⟩ := Option.bind_eq_some_iff.mp htypes
  obtain ⟨members, rfl, m, hm, htype⟩ := exists_member_of_table? htable he
  exact NodeTypeConfig.templateSettled_of_ofJson? htype
    ((distinct_obj.mp (distinct_find hg hj hv)).2 m hm)

/-- The template of a node type of an accepted configuration has distinct keys and finite numbers. -/
theorem ClusterConfig.templateSettled_of_ofText {files : FileStore} {text : String}
    {c : ClusterConfig} (h : ClusterConfig.ofText files text = .ok c) {name : String}
    {t : NodeTypeConfig} (ht : c.nodeType? name = some t) : t.TemplateSettled := by
  unfold ClusterConfig.ofText at h
  split at h
  · cases h
  · next c' hread =>
    have hsame : c' = c := by
      unfold ClusterConfig.checked at h
      split at h
      · exact Except.ok.inj h
      · cases h
    subst hsame
    obtain ⟨entries, -, hjson⟩ := Option.bind_eq_some_iff.mp hread
    exact templateSettled_of_ofJson? hjson (distinct_object (Toml.distinct_entriesToJson entries))
      (Table.get?_eq_some_iff.mp ht)

end ClusterScaler
