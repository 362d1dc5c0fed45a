import ClusterScaler.Proofs.Json.Printing
import ClusterScaler.Proofs.Table.Lookup
import ClusterScaler.Proofs.Table.Reading
import ClusterScaler.Provider.HostPool

/-!
# The saved table of hosts is read back

The text that is saved for a table of hosts decodes to the table. The generations must be such as
the pool holds them, numbers of 64 bits.
-/

set_option autoImplicit false

namespace ClusterScaler

open Document

theorem Document.ofMembers_map {α : Type} (f : α → Json) (es : List (String × α)) :
    ofMembers (es.map fun e => (e.1, f e.2)) = es.map fun e => (e.1, ofJson (f e.2)) := by
  induction es with
  | nil => rfl
  | cons e es ih => rw [List.map_cons, ofMembers, ih, List.map_cons]

/-- A reader that reads what was written for each value reads a table of such values. -/
theorem Reader.table_ofTable {α : Type} {f : α → Json} {value : Reader α} {t : Table String α}
    (hvalue : ∀ e ∈ t.entries, value (ofJson (f e.2)) = .ok e.2) :
    Reader.table value (ofJson (Json.ofTable f t)) = .ok t := by
  have hmembers : (t.entries.map fun e => (e.1, ofJson (f e.2))).mapM
      (fun m => do return (m.1, ← value m.2)) = .ok t.entries := by
    rw [mapM_eq_ok_iff, List.forall₂_map_left_iff, List.forall₂_same]
    exact fun e he => keyed_eq_ok_iff.mpr ⟨rfl, hvalue e he⟩
  unfold Json.ofTable ofJson Reader.table
  rw [ofMembers_map]
  dsimp only
  rw [hmembers]
  change Except.ok (Table.ofList t.entries) = _
  rw [Table.ofList_entries]

/-- A group goes on behind a member that it has not seen. -/
theorem Reader.visitMembers_cons {σ : Type} {fields : List (Field σ)} {seen : List String}
    {name : String} {d : Document} {f : Field σ} {s : σ} {rest : List (String × Document)}
    (hfind : fields.find? (·.name == name) = some f) (hnew : seen.contains name = false) :
    visitMembers fields seen s ((name, d) :: rest) =
      f.read s d >>= fun s' => visitMembers fields (name :: seen) s' rest := by
  rw [visitMembers, hfind]
  dsimp only
  rw [hnew]
  rfl

namespace HostTable

/-- All generations are numbers of 64 bits. -/
def Fits (hosts : HostTable) : Prop := ∀ e ∈ hosts.entries, e.2.generation < Nat.pow 2 64

theorem read_recordToJson {r : HostRecord} (hr : r.generation < Nat.pow 2 64) :
    Reader.group recordFields (HostRecord.fresh "") (ofJson (recordToJson r)) = .ok r := by
  have htags : Reader.table Reader.text (ofJson (Json.ofTable .str r.tags)) = .ok r.tags :=
    Reader.table_ofTable fun _ _ => rfl
  have hgeneration : Reader.nat 64 (ofJson (.nat r.generation)) = .ok r.generation := if_pos hr
  have hstate : state (ofJson (.str (stateText r.state))) = .ok r.state := by
    cases r.state <;> rfl
  have hvisit : Reader.visitMembers recordFields [] (HostRecord.fresh "")
      [("node_type", .str r.nodeType), ("state", ofJson (.str (stateText r.state))),
        ("generation", ofJson (.nat r.generation)), ("tags", ofJson (Json.ofTable .str r.tags))] =
      .ok (["tags", "generation", "state", "node_type"], r) := by
    rw [Reader.visitMembers_cons rfl rfl]
    change Reader.visitMembers recordFields _ ⟨r.nodeType, .free, 0, ∅⟩ _ = _
    rw [Reader.visitMembers_cons rfl rfl]
    dsimp only
    rw [hstate]
    change Reader.visitMembers recordFields _ ⟨r.nodeType, r.state, 0, ∅⟩ _ = _
    rw [Reader.visitMembers_cons rfl rfl]
    dsimp only
    rw [hgeneration]
    change Reader.visitMembers recordFields _ ⟨r.nodeType, r.state, r.generation, ∅⟩ _ = _
    rw [Reader.visitMembers_cons rfl rfl]
    dsimp only
    rw [htags]
    rfl
  have hmembers : ofJson (recordToJson r) = .obj [("node_type", .str r.nodeType),
      ("state", ofJson (.str (stateText r.state))), ("generation", ofJson (.nat r.generation)),
      ("tags", ofJson (Json.ofTable .str r.tags))] true := rfl
  rw [hmembers]
  unfold Reader.group
  dsimp only
  rw [hvisit]
  rfl

theorem plain_recordToJson {r : HostRecord} (hr : r.generation < Nat.pow 2 64) (d : Nat) :
    Json.Plain (d + 2) (recordToJson r) := by
  have htags : Json.Plain (d + 1) (Json.ofTable .str r.tags) := by
    intro m hm
    obtain ⟨e, -, rfl⟩ := List.mem_map.mp hm
    simp [Json.Plain]
  intro m hm
  simp only [List.mem_cons, List.not_mem_nil, or_false] at hm
  rcases hm with rfl | rfl | rfl | rfl
  · trivial
  · trivial
  · exact hr
  · exact htags

/-- What is saved for a table is the table. -/
theorem decode?_encode {hosts : HostTable} (h : hosts.Fits) :
    decode? hosts.encode = some hosts := by
  have hplain : Json.Plain maxDepth (Json.ofTable recordToJson hosts) := by
    intro m hm
    obtain ⟨e, he, rfl⟩ := List.mem_map.mp hm
    exact plain_recordToJson (h e he) 124
  have htable : Reader.table (Reader.group recordFields (HostRecord.fresh ""))
      (ofJson (Json.ofTable recordToJson hosts)) = .ok hosts :=
    Reader.table_ofTable fun e he => read_recordToJson (h e he)
  unfold decode? encode Reader.ofText
  rw [Json.read_pretty hplain]
  dsimp only
  rw [htable]
  rfl

end HostTable

end ClusterScaler
