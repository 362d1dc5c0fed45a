import ClusterScaler.Proofs.Planning.Orders
import ClusterScaler.Proofs.Tick.Memory

/-!
# What a tick leaves at its provider

A tick without failures leaves the nodes that it did not terminate and those that it ordered. The
loop that comes out of it finds all of them healthy, at the same time and with nothing new heard
from them.
-/

set_option autoImplicit false

namespace ClusterScaler

/-- A node is as it was, but for the tags that an updater at work on it may set. -/
structure NodeRecord.StaysAs (n : NodeRecord) (l : ControlLoop) (n' : NodeRecord) : Prop where
  id : n'.id = n.id
  running : n'.running = n.running
  nodeType : n'.nodeType? = n.nodeType?
  tags : l.isUpdating n.id = false → n'.tags = n.tags

variable {files : FileStore} {now : Nat} {time : Duration} {before : ControlLoop}

namespace Passage

/-- The nodes that a tick does not terminate. -/
def survivors (p : Passage files now time before) : List NodeRecord :=
  p.nodes.filter (fun n => !p.plan.doomed.contains n.id)

/-- The tags of the nodes that a tick orders. -/
def orderedTags (p : Passage files now time before) : List Tags :=
  p.orders.flatMap (fun o => List.replicate o.count o.tags)

/-- What a tick leaves at its provider, listed in any order: the nodes that it did not terminate, and
those that it ordered. -/
def Leaves (p : Passage files now time before) (nodes : List NodeRecord) : Prop :=
  ∃ (later : NodeRecord → NodeRecord) (fresh : List NodeRecord),
    nodes.Perm (p.survivors.map later ++ fresh) ∧
      (∀ n ∈ p.survivors, n.StaysAs p.after (later n)) ∧ fresh.map (·.tags) = p.orderedTags

end Passage

namespace ControlLoop

variable {l l' : ControlLoop} {gone : List NodeId} {nodes : List NodeRecord}

/-- A healthy node that stays stays healthy. -/
theorem forcedReason_of_stays (hkeeps : (l.removeAll gone).Keeps l') {n n' : NodeRecord}
    (hhealthy : l.forcedReason now n = none) (hid : n'.id = n.id)
    (htype : n'.nodeType? = n.nodeType?) (htags : l'.isUpdating n.id = false → n'.tags = n.tags) :
    (l'.takeIn nodes now).forcedReason now n' = none := by
  rw [forcedReason_eq_none_iff]
  cases hupdating : l'.isUpdating n.id with
  | true =>
    left
    rw [hid]
    exact hupdating
  | false =>
    right
    -- an updater that was at work still is, so the tags have not changed
    rcases forcedReason_eq_none_iff.mp hhealthy with hold | ⟨h, hhashes, htainted, hstatus, hlaunch,
      hstale⟩
    · have hstill := hkeeps.updating n.id hold
      rw [hupdating] at hstill
      cases hstill
    · rw [htags hupdating, hid]
      refine ⟨h, ?_, ?_, hstatus, hlaunch, ?_⟩
      · unfold hashesFor? at hhashes ⊢
        rw [htype]
        change n.nodeType?.bind l'.hashes.get? = some h
        rw [hkeeps.hashes]
        exact hhashes
      · intro hmem
        have htainted' := (mem_tainted_takeIn_iff.mp hmem).1
        rw [hkeeps.tainted] at htainted'
        exact htainted (mem_tainted_removeAll_iff.mp htainted').1
      · cases hnow : (l'.takeIn nodes now).loads.isStale n.id now with
        | false => rfl
        | true =>
          have hthen := (isStale_of_takeIn hnow).2
          rw [hkeeps.loads] at hthen
          rw [(isStale_of_removeAll hthen).2] at hstale
          cases hstale

theorem launchOrder?_tags {nodeType : String} {count : Nat} {o : LaunchOrder}
    (h : l.launchOrder? nodeType count = some o) :
    ∃ hashes, l.hashes.get? nodeType = some hashes ∧ o.tags = l.launchTags nodeType hashes := by
  unfold launchOrder? LaunchConfig.ofNodeType? at h
  cases htype : l.config.nodeType? nodeType with
  | none =>
    rw [htype] at h
    cases h
  | some t =>
    rw [htype] at h
    cases hhashes : l.hashes.get? nodeType with
    | none =>
      rw [hhashes] at h
      cases h
    | some hashes =>
      rw [hhashes] at h
      cases h
      exact ⟨hashes, rfl, rfl⟩

theorem launchTags_get? (l : ControlLoop) (nodeType : String) (hashes : NodeTypeHashes) :
    (l.launchTags nodeType hashes).get? Tags.nodeType = some nodeType ∧
      (l.launchTags nodeType hashes).get? Tags.nodeStatus =
        some BootstrapStatus.uninitialized.text ∧
      (l.launchTags nodeType hashes).get? Tags.launchConfig = some hashes.launch.hex := by
  have hstatus : (l.launchTags nodeType hashes).get? Tags.nodeStatus =
      some BootstrapStatus.uninitialized.text := by
    have hlaunch : Tags.nodeStatus ≠ Tags.launchConfig := by decide
    exact (Table.get?_insert_of_ne hlaunch).trans Table.get?_insert_self
  have htype : (l.launchTags nodeType hashes).get? Tags.nodeType = some nodeType := by
    have hlaunch : Tags.nodeType ≠ Tags.launchConfig := by decide
    have hstatus : Tags.nodeType ≠ Tags.nodeStatus := by decide
    have hname : Tags.nodeType ≠ Tags.nodeName := by decide
    exact (Table.get?_insert_of_ne hlaunch).trans ((Table.get?_insert_of_ne hstatus).trans
      ((Table.get?_insert_of_ne hname).trans Table.get?_insert_self))
  exact ⟨htype, hstatus, Table.get?_insert_self⟩

theorem tags_of_mem_ordersFor {deficits : List (String × Nat)} {o : LaunchOrder}
    (h : o ∈ l.ordersFor deficits) :
    ∃ hashes, l.hashes.get? o.template.nodeType = some hashes ∧
      o.tags = l.launchTags o.template.nodeType hashes := by
  unfold ordersFor at h
  rw [List.mem_filterMap] at h
  obtain ⟨⟨nodeType, count⟩, -, hd⟩ := h
  have horder : l.launchOrder? nodeType count = some o := hd
  rw [(launchOrder?_eq_some horder).1]
  exact launchOrder?_tags horder

theorem nodeType_of_mem_ordersFor {deficits : List (String × Nat)} {o : LaunchOrder}
    (h : o ∈ l.ordersFor deficits) : o.tags.get? Tags.nodeType = some o.template.nodeType := by
  obtain ⟨hashes, -, htags⟩ := tags_of_mem_ordersFor h
  rw [htags]
  exact (l.launchTags_get? _ hashes).1

/-- A node that was ordered is healthy once it is there. -/
theorem forcedReason_of_ordered (hkeeps : (l.removeAll gone).Keeps l')
    (hread : ∀ id, l.loads.isStale id now = true ∨ id ∈ l.tainted → id ∈ nodes.map (·.id))
    {deficits : List (String × Nat)} {o : LaunchOrder} (ho : o ∈ l.ordersFor deficits)
    {nodes' : List NodeRecord} {n : NodeRecord} (htags : n.tags = o.tags)
    (hnew : n.id ∈ nodes.map (·.id) → n.id ∈ gone) :
    (l'.takeIn nodes' now).forcedReason now n = none := by
  obtain ⟨hashes, hhashes, horderTags⟩ := tags_of_mem_ordersFor ho
  obtain ⟨htype, hstatus, hlaunch⟩ := l.launchTags_get? o.template.nodeType hashes
  rw [← horderTags, ← htags] at htype hstatus hlaunch
  rw [forcedReason_eq_none_iff]
  refine .inr ⟨hashes, ?_, ?_, ?_, hlaunch, ?_⟩
  · unfold hashesFor?
    change (n.tags.get? Tags.nodeType).bind l'.hashes.get? = some hashes
    rw [htype, hkeeps.hashes]
    exact hhashes
  · intro hmem
    have htainted := (mem_tainted_takeIn_iff.mp hmem).1
    rw [hkeeps.tainted, mem_tainted_removeAll_iff] at htainted
    exact htainted.2 (hnew (hread n.id (.inr htainted.1)))
  · rw [hstatus]
    decide
  · cases hnow : (l'.takeIn nodes' now).loads.isStale n.id now with
    | false => rfl
    | true =>
      have hthen := (isStale_of_takeIn hnow).2
      rw [hkeeps.loads] at hthen
      obtain ⟨hgone, hstale⟩ := isStale_of_removeAll hthen
      exact absurd (hnew (hread n.id (.inl hstale))) hgone

end ControlLoop

namespace Passage

variable {p : Passage files now time before}

/-- The nodes that a tick does not terminate are the healthy ones that it does not give up. -/
theorem survivors_eq_remaining : p.survivors = p.plan.remaining := by
  have hhealthy : p.plan.healthy.map (·.1) =
      p.nodes.filter (fun n => (p.planner.forcedReason now n).isNone) :=
    ControlLoop.healthy_map_fst p.planner now p.nodes
  unfold survivors TickPlan.remaining
  rw [hhealthy, List.filter_filter]
  apply List.filter_congr
  intro n hn
  unfold TickPlan.doomed
  rw [Bool.eq_iff_iff]
  simp only [Bool.not_eq_true', Bool.and_eq_true, List.contains_eq_mem, decide_eq_false_iff_not,
    List.mem_append, not_or, Option.isNone_iff_eq_none, List.mem_map, not_exists, not_and]
  constructor
  · rintro ⟨hforced, hexcess⟩
    refine ⟨hexcess, ?_⟩
    cases hreason : p.planner.forcedReason now n with
    | none => rfl
    | some reason =>
      have hmem : n ∈ p.plan.forced :=
        List.mem_filter.mpr ⟨hn, Option.isSome_iff_exists.mpr ⟨reason, hreason⟩⟩
      exact absurd rfl (hforced n hmem)
  · rintro ⟨hexcess, hreason⟩
    refine ⟨?_, hexcess⟩
    intro m hm hid
    have hforced := List.mem_filter.mp hm
    have heq : m = n := List.inj_on_of_nodup_map p.nodup hforced.1 hn hid
    rw [heq, hreason] at hforced
    cases hforced.2

theorem forcedReason_of_mem_survivors {n : NodeRecord} (h : n ∈ p.survivors) :
    p.planner.forcedReason now n = none := by
  have hhealthy : n ∈ p.plan.healthy.map (·.1) := by
    rw [survivors_eq_remaining] at h
    exact List.mem_of_mem_filter h
  have hmem : n ∈ p.nodes.filter (fun n => (p.planner.forcedReason now n).isNone) := by
    rw [← ControlLoop.healthy_map_fst]
    exact hhealthy
  exact Option.isNone_iff_eq_none.mp (List.mem_filter.mp hmem).2

theorem mem_orderedTags {tags : Tags} (h : tags ∈ p.orderedTags) :
    ∃ o ∈ p.orders, tags = o.tags := by
  unfold orderedTags at h
  rw [List.mem_flatMap] at h
  obtain ⟨o, ho, hmem⟩ := h
  exact ⟨o, ho, List.eq_of_mem_replicate hmem⟩

/-- There are as many new nodes of a type as were ordered. -/
theorem countP_ordered {fresh : List NodeRecord} (hfresh : fresh.map (·.tags) = p.orderedTags)
    (htypes : ∀ o ∈ p.orders, o.tags.get? Tags.nodeType = some o.template.nodeType)
    (nodeType : String) :
    fresh.countP (·.nodeType? = some nodeType) =
      (p.orders.map (LaunchOrder.nodesOf nodeType)).sum := by
  have htags : fresh.countP (·.nodeType? = some nodeType) =
      (fresh.map (·.tags)).countP (fun tags => tags.get? Tags.nodeType = some nodeType) := by
    rw [List.countP_map]
    rfl
  rw [htags, hfresh]
  unfold orderedTags
  rw [List.countP_flatMap]
  congr 1
  apply List.map_congr_left
  intro o ho
  unfold LaunchOrder.nodesOf
  rw [Function.comp_apply, List.countP_replicate, htypes o ho]
  simp

/-- The loop that plans remembers only nodes that were read. -/
theorem mem_nodes_of_remembered {id : NodeId}
    (h : p.planner.loads.isStale id now = true ∨ id ∈ p.planner.tainted) :
    id ∈ p.nodes.map (·.id) := by
  rcases h with hstale | htainted
  · exact (ControlLoop.isStale_of_takeIn hstale).1
  · exact (ControlLoop.mem_tainted_takeIn_iff.mp htainted).2

/-- A new node has the name of an old one only if that one was terminated. -/
theorem mem_doomed_of_fresh {later : NodeRecord → NodeRecord} {fresh : List NodeRecord}
    (hids : ((p.survivors.map later ++ fresh).map (·.id)).Nodup)
    (hlater : ∀ n ∈ p.survivors, (later n).id = n.id) {n : NodeRecord} (hn : n ∈ fresh)
    (hold : n.id ∈ p.nodes.map (·.id)) : n.id ∈ p.plan.doomed := by
  rw [List.map_append, List.nodup_append] at hids
  obtain ⟨m, hm, hid⟩ := List.mem_map.mp hold
  by_contra hstayed
  have hsurvives : m ∈ p.survivors := by
    refine List.mem_filter.mpr ⟨hm, ?_⟩
    rw [hid]
    simpa using hstayed
  have hsame : (later m).id = n.id := (hlater m hsurvives).trans hid
  exact hids.2.2 _ (List.mem_map_of_mem (List.mem_map_of_mem hsurvives)) _
    (List.mem_map_of_mem hn) hsame

end Passage

end ClusterScaler
