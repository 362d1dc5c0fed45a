import ClusterScaler.Proofs.Demand.Counts
import ClusterScaler.Proofs.Planning.Candidates
import ClusterScaler.Proofs.Tick.Passage
import Mathlib.Data.List.Nodup
import Mathlib.Data.List.Perm.Subperm

/-!
# Which nodes are given up

The nodes above the target of a type are counted among all its healthy nodes, but taken only from
those without an updater in flight, idle ones first. So a busy node is given up exactly if the
target leaves no room for the busy nodes together with the idle ones that an updater holds.
-/

set_option autoImplicit false

namespace ClusterScaler

namespace TickPlan

/-- The healthy nodes of a type. -/
def live (p : TickPlan) (nodeType : String) : Nat :=
  p.healthy.countP (fun e => e.1.nodeType? = some nodeType)

/-- The healthy nodes of a type that are not idle. -/
def busy (p : TickPlan) (nodeType : String) : Nat :=
  p.healthy.countP (fun e => e.1.nodeType? = some nodeType ∧ ¬ e.2.idle)

end TickPlan

namespace ControlLoop

/-- The healthy nodes of a type that are idle and have an updater in flight. -/
def heldIdle (l : ControlLoop) (p : TickPlan) (nodeType : String) : Nat :=
  p.healthy.countP (fun e =>
    e.1.nodeType? = some nodeType ∧ e.2.idle ∧ l.isUpdating e.1.id)

variable {l : ControlLoop} {healthy : List (NodeRecord × NodeCapacity Float)}
  {nodeType : String}

theorem mem_candidatesOf_iff {c : Candidate} :
    c ∈ candidatesOf healthy nodeType ↔
      ∃ e ∈ healthy, e.1.nodeType? = some nodeType ∧
        c = ⟨e.2.idle, e.2.utilization.getD 1.0, e.1.id⟩ := by
  unfold candidatesOf
  rw [List.mem_filterMap]
  constructor
  · rintro ⟨⟨n, cap⟩, hmem, hc⟩
    dsimp only at hc
    split at hc
    · next htype =>
      cases hc
      exact ⟨(n, cap), hmem, htype, rfl⟩
    · cases hc
  · rintro ⟨⟨n, cap⟩, hmem, htype, rfl⟩
    exact ⟨(n, cap), hmem, if_pos htype⟩

theorem countP_candidatesOf (p : Candidate → Bool) :
    (candidatesOf healthy nodeType).countP p = healthy.countP (fun e =>
      e.1.nodeType? = some nodeType ∧
        p ⟨e.2.idle, e.2.utilization.getD 1.0, e.1.id⟩ = true) := by
  unfold candidatesOf
  rw [List.countP_filterMap]
  apply List.countP_congr
  rintro ⟨n, cap⟩ -
  dsimp only
  by_cases htype : n.nodeType? = some nodeType
  · simp [htype]
  · simp [htype]

/-- What is counted comes apart into what has a property and what has not. -/
theorem countP_and_add_countP_and_not {β : Type} (xs : List β) (p q : β → Prop)
    [DecidablePred p] [DecidablePred q] :
    xs.countP (fun a => p a ∧ q a) + xs.countP (fun a => p a ∧ ¬ q a) =
      xs.countP (fun a => p a) := by
  rw [List.countP_eq_countP_filter_add xs (fun a => p a) (fun a => q a), List.countP_filter,
    List.countP_filter]
  congr 1
  · apply List.countP_congr
    simp
  · apply List.countP_congr
    simp

/-- The healthy nodes of a type are its busy ones, and its idle ones, with an updater in flight or
without. -/
theorem live_eq (l : ControlLoop) (p : TickPlan) (nodeType : String) :
    p.live nodeType = p.busy nodeType + l.heldIdle p nodeType +
      (candidatesOf p.healthy nodeType).countP (fun c => c.idle && !l.isUpdating c.id) := by
  have hidle := countP_and_add_countP_and_not p.healthy
    (fun e => e.1.nodeType? = some nodeType) (fun e => e.2.idle)
  have hheld := countP_and_add_countP_and_not p.healthy
    (fun e => e.1.nodeType? = some nodeType ∧ e.2.idle) (fun e => l.isUpdating e.1.id)
  have hfree : (candidatesOf p.healthy nodeType).countP (fun c => c.idle && !l.isUpdating c.id) =
      p.healthy.countP (fun e => (e.1.nodeType? = some nodeType ∧ e.2.idle) ∧
        ¬ l.isUpdating e.1.id) := by
    rw [countP_candidatesOf]
    apply List.countP_congr
    simp [and_assoc]
  simp only [and_assoc] at hheld hfree
  unfold TickPlan.live TickPlan.busy heldIdle
  omega

theorem length_candidatesOf (p : TickPlan) (nodeType : String) :
    (candidatesOf p.healthy nodeType).length = p.live nodeType := by
  rw [← List.countP_true, countP_candidatesOf]
  unfold TickPlan.live
  simp

/-- The nodes given up of a type are healthy nodes of the type, as candidates in their turn. -/
theorem mem_excessOf_iff {p : TickPlan} (hnodup : (p.healthy.map (·.1.id)).Nodup) {target : Nat}
    {e : NodeRecord × NodeCapacity Float} (he : e ∈ p.healthy) :
    e.1.id ∈ l.excessOf p.healthy nodeType target ↔ e.1.nodeType? = some nodeType ∧
      ⟨e.2.idle, e.2.utilization.getD 1.0, e.1.id⟩ ∈
        (sortCandidates ((candidatesOf p.healthy nodeType).filter
          (fun c => !l.isUpdating c.id))).take (p.live nodeType - target) := by
  unfold excessOf
  dsimp only
  rw [length_candidatesOf, List.mem_map]
  constructor
  · rintro ⟨c, hc, hid⟩
    have hmem := List.mem_of_mem_take hc
    rw [(sortCandidates_perm _).mem_iff, List.mem_filter, mem_candidatesOf_iff] at hmem
    obtain ⟨⟨e', he', htype, rfl⟩, -⟩ := hmem
    have heq : e' = e := List.inj_on_of_nodup_map hnodup he' he hid
    subst heq
    exact ⟨htype, hc⟩
  · rintro ⟨-, hc⟩
    exact ⟨_, hc, rfl⟩

/-- A busy node of a type is given up exactly if the busy nodes and the idle ones with an updater in
flight are more than the target, and one of the busy ones has no updater in flight. -/
theorem exists_busy_mem_excessOf_iff {p : TickPlan} (hnodup : (p.healthy.map (·.1.id)).Nodup)
    (target : Nat) :
    (∃ e ∈ p.healthy, e.1.nodeType? = some nodeType ∧ ¬ e.2.idle ∧
        e.1.id ∈ l.excessOf p.healthy nodeType target) ↔
      target < p.busy nodeType + l.heldIdle p nodeType ∧
        ∃ e ∈ p.healthy, e.1.nodeType? = some nodeType ∧ ¬ e.2.idle ∧
          ¬ l.isUpdating e.1.id := by
  -- among the free candidates the idle ones come first, so the count of those decides
  have hturn := (sortCandidates_idleFirst ((candidatesOf p.healthy nodeType).filter
    (fun c => !l.isUpdating c.id))).exists_busy_mem_take_iff (p.live nodeType - target)
  rw [(sortCandidates_perm _).countP_eq, List.countP_filter] at hturn
  have hlive := live_eq l p nodeType
  constructor
  · rintro ⟨e, he, htype, hbusy, hmem⟩
    obtain ⟨-, hc⟩ := (mem_excessOf_iff hnodup he).mp hmem
    have hturned := hturn.mp ⟨_, hc, by simpa using hbusy⟩
    have hfree := List.mem_of_mem_take hc
    rw [(sortCandidates_perm _).mem_iff, List.mem_filter] at hfree
    refine ⟨by omega, e, he, htype, hbusy, by simpa using hfree.2⟩
  · rintro ⟨hlt, e, he, htype, hbusy, hfree⟩
    have hcandidate : (⟨e.2.idle, e.2.utilization.getD 1.0, e.1.id⟩ : Candidate) ∈
        sortCandidates ((candidatesOf p.healthy nodeType).filter
          (fun c => !l.isUpdating c.id)) := by
      rw [(sortCandidates_perm _).mem_iff, List.mem_filter, mem_candidatesOf_iff]
      exact ⟨⟨e, he, htype, rfl⟩, by simpa using hfree⟩
    obtain ⟨c, hc, hcbusy⟩ := hturn.mpr ⟨by omega, _, hcandidate, by simpa using hbusy⟩
    have hmem := List.mem_of_mem_take hc
    rw [(sortCandidates_perm _).mem_iff, List.mem_filter, mem_candidatesOf_iff] at hmem
    obtain ⟨⟨e', he', htype', rfl⟩, -⟩ := hmem
    refine ⟨e', he', htype', by simpa using hcbusy, ?_⟩
    exact (mem_excessOf_iff hnodup he').mpr ⟨htype', hc⟩

theorem mem_planExcess_iff {p : TickPlan} (hnodup : (p.healthy.map (·.1.id)).Nodup)
    {targets : Table String Nat} {target : Nat} (htarget : targets.get? nodeType = some target)
    {e : NodeRecord × NodeCapacity Float} (he : e ∈ p.healthy)
    (htype : e.1.nodeType? = some nodeType) :
    e.1.id ∈ l.planExcess p.healthy targets ↔
      e.1.id ∈ l.excessOf p.healthy nodeType target := by
  unfold planExcess
  rw [List.mem_flatMap]
  constructor
  · rintro ⟨⟨name, count⟩, hentry, hmem⟩
    have hname := ((mem_excessOf_iff hnodup he).mp hmem).1
    rw [htype] at hname
    cases hname
    rw [← Table.get?_eq_some_iff, htarget] at hentry
    cases hentry
    exact hmem
  · intro hmem
    exact ⟨(nodeType, target), Table.get?_eq_some_iff.mp htarget, hmem⟩

/-- The healthy nodes of a type that have an updater in flight. -/
def held (l : ControlLoop) (p : TickPlan) (nodeType : String) : Nat :=
  p.healthy.countP (fun e => e.1.nodeType? = some nodeType ∧ l.isUpdating e.1.id)

theorem ids_candidatesOf (healthy : List (NodeRecord × NodeCapacity Float)) (nodeType : String) :
    (candidatesOf healthy nodeType).map (·.id) =
      (healthy.filter (fun e => e.1.nodeType? = some nodeType)).map (·.1.id) := by
  induction healthy with
  | nil => rfl
  | cons e rest ih =>
    unfold candidatesOf at ih ⊢
    rw [List.filterMap_cons, List.filter_cons]
    by_cases htype : e.1.nodeType? = some nodeType
    · simp only [htype, if_true, decide_true, List.map_cons]
      rw [ih]
    · simp only [htype, if_false, decide_false]
      exact ih

/-- Above its target, a type gives up as many nodes as have no updater in flight. -/
theorem length_excessOf (p : TickPlan) (nodeType : String) (target : Nat) :
    (l.excessOf p.healthy nodeType target).length =
      min (p.live nodeType - target) (p.live nodeType - l.held p nodeType) := by
  have hheld := countP_and_add_countP_and_not p.healthy (fun e => e.1.nodeType? = some nodeType)
    (fun e => l.isUpdating e.1.id)
  have hfree : ((candidatesOf p.healthy nodeType).filter (fun c => !l.isUpdating c.id)).length =
      p.healthy.countP (fun e => e.1.nodeType? = some nodeType ∧ ¬ l.isUpdating e.1.id) := by
    rw [← List.countP_eq_length_filter, countP_candidatesOf]
    apply List.countP_congr
    simp
  have hlive : p.live nodeType - l.held p nodeType =
      p.healthy.countP (fun e => e.1.nodeType? = some nodeType ∧ ¬ l.isUpdating e.1.id) := by
    unfold TickPlan.live held
    omega
  unfold excessOf
  dsimp only
  rw [List.length_map, List.length_take, length_candidatesOf, (sortCandidates_perm _).length_eq,
    hfree, hlive]

/-- No node of a type is given up twice. -/
theorem nodup_excessOf (hnodup : (healthy.map (·.1.id)).Nodup) (nodeType : String) (target : Nat) :
    (l.excessOf healthy nodeType target).Nodup := by
  have hcandidates : ((candidatesOf healthy nodeType).map (·.id)).Nodup := by
    rw [ids_candidatesOf]
    exact (List.filter_sublist.map _).nodup hnodup
  refine ((List.take_sublist _ _).map _).nodup ?_
  refine ((sortCandidates_perm _).map _).nodup_iff.mpr ?_
  exact (List.filter_sublist.map _).nodup hcandidates

/-- The nodes of a type that are given up: those above its target, as far as they have no updater in
flight. -/
theorem countP_excess {p : TickPlan} (hnodup : (p.healthy.map (·.1.id)).Nodup)
    {targets : Table String Nat} {target : Nat} (htarget : targets.get? nodeType = some target) :
    p.healthy.countP (fun e =>
        e.1.nodeType? = some nodeType ∧ e.1.id ∈ l.planExcess p.healthy targets) =
      min (p.live nodeType - target) (p.live nodeType - l.held p nodeType) := by
  rw [List.countP_eq_length_filter, ← List.length_map (·.1.id), ← length_excessOf]
  have hdistinct : ((p.healthy.filter (fun e => e.1.nodeType? = some nodeType ∧
      e.1.id ∈ l.planExcess p.healthy targets)).map (·.1.id)).Nodup :=
    (List.filter_sublist.map _).nodup hnodup
  have hexcess := nodup_excessOf (l := l) hnodup nodeType target
  refine ((List.perm_ext_iff_of_nodup hdistinct hexcess).mpr fun id => ?_).length_eq
  rw [List.mem_map]
  constructor
  · rintro ⟨e, he, rfl⟩
    simp only [List.mem_filter, decide_eq_true_eq] at he
    exact (mem_planExcess_iff hnodup htarget he.1 he.2.1).mp he.2.2
  · intro hid
    have hcandidate : id ∈ (candidatesOf p.healthy nodeType).map (·.id) := by
      obtain ⟨c, hc, rfl⟩ := List.mem_map.mp hid
      have hsorted := (sortCandidates_perm _).mem_iff.mp (List.mem_of_mem_take hc)
      exact List.mem_map_of_mem (List.mem_of_mem_filter hsorted)
    rw [ids_candidatesOf, List.mem_map] at hcandidate
    obtain ⟨e, he, rfl⟩ := hcandidate
    simp only [List.mem_filter, decide_eq_true_eq] at he
    refine ⟨e, ?_, rfl⟩
    simp only [List.mem_filter, decide_eq_true_eq]
    exact ⟨he.1, he.2, (mem_planExcess_iff hnodup htarget he.1 he.2).mpr hid⟩

/-- What remains of a type once nodes were given up. -/
theorem countP_remaining {p : TickPlan} (hnodup : (p.healthy.map (·.1.id)).Nodup)
    {target : Nat} (htarget : p.targets.get? nodeType = some target)
    (hexcess : p.excess = l.planExcess p.healthy p.targets) :
    p.remaining.countP (·.nodeType? = some nodeType) =
      p.live nodeType - min (p.live nodeType - target) (p.live nodeType - l.held p nodeType) := by
  have hgiven := countP_excess (l := l) hnodup htarget
  have hsplit := countP_and_add_countP_and_not p.healthy (fun e => e.1.nodeType? = some nodeType)
    (fun e => e.1.id ∈ l.planExcess p.healthy p.targets)
  have hremaining : p.remaining.countP (·.nodeType? = some nodeType) =
      p.healthy.countP (fun e => e.1.nodeType? = some nodeType ∧
        ¬ e.1.id ∈ l.planExcess p.healthy p.targets) := by
    unfold TickPlan.remaining
    rw [List.countP_filter, List.countP_map, hexcess]
    apply List.countP_congr
    simp
  have hlive : p.healthy.countP (fun e => e.1.nodeType? = some nodeType) = p.live nodeType := rfl
  omega

/-- What a type lacks to its target once nodes were given up is what it lacked before. -/
theorem target_sub_remaining {p : TickPlan} (hnodup : (p.healthy.map (·.1.id)).Nodup)
    {target : Nat} (htarget : p.targets.get? nodeType = some target)
    (hexcess : p.excess = l.planExcess p.healthy p.targets) :
    target - p.remaining.countP (·.nodeType? = some nodeType) = target - p.live nodeType := by
  rw [countP_remaining hnodup htarget hexcess]
  omega

variable {now : Nat} {nodes : List NodeRecord}

theorem healthy_map_fst (l : ControlLoop) (now : Nat) (nodes : List NodeRecord) :
    (l.planTick now nodes).healthy.map (·.1) =
      nodes.filter (fun n => (l.forcedReason now n).isNone) := by
  unfold planTick healthyOf
  dsimp only
  rw [List.map_map]
  exact List.map_id _

theorem healthy_nodup (l : ControlLoop) (now : Nat) (h : (nodes.map (·.id)).Nodup) :
    ((l.planTick now nodes).healthy.map (·.1.id)).Nodup := by
  have hids : (l.planTick now nodes).healthy.map (·.1.id) =
      ((l.planTick now nodes).healthy.map (·.1)).map (·.id) := List.map_map.symm
  rw [hids, healthy_map_fst]
  exact (List.filter_sublist.map _).nodup h

theorem capacityOf_nodeType {n : NodeRecord} (h : n.nodeType? = some nodeType) :
    (l.capacityOf now n).nodeType = nodeType := by
  unfold capacityOf
  rw [h]
  rfl

theorem targets_get? {limits : TypeLimits Float}
    (h : l.config.limits.get? nodeType = some limits) :
    (l.planTick now nodes).targets.get? nodeType =
      some ((planDemand l.config.limits ((l.healthyOf now nodes).map (·.2)) l.demand).target
        ((l.healthyOf now nodes).map (·.2)) l.config.tunables.targetUtilization nodeType limits) :=
  computeTargets_get? h l.config.tunables.targetUtilization

/-- The target of a type has room for its busy nodes if its maximum has. -/
theorem busy_le_targets {limits : TypeLimits Float}
    (h : l.config.limits.get? nodeType = some limits)
    (hmax : (l.planTick now nodes).busy nodeType ≤ limits.maxWorkers) :
    (l.planTick now nodes).busy nodeType ≤
      countOf (l.planTick now nodes).targets nodeType := by
  have hbusy : (l.planTick now nodes).busy nodeType ≤
      ((l.healthyOf now nodes).map (·.2)).countP (fun c => c.nodeType == nodeType && !c.idle) := by
    rw [List.countP_map]
    apply List.countP_mono_left
    intro e he hbusy
    have hmem : e ∈ l.healthyOf now nodes := he
    unfold healthyOf at hmem
    rw [List.mem_map] at hmem
    obtain ⟨n, -, rfl⟩ := hmem
    simp only [decide_eq_true_eq] at hbusy
    have htype : (l.capacityOf now n).nodeType = nodeType := capacityOf_nodeType hbusy.1
    simp only [Function.comp_apply, htype, beq_self_eq_true, Bool.true_and]
    simpa using hbusy.2
  have hroom := busy_le_target l.config.limits ((l.healthyOf now nodes).map (·.2)) l.demand
    l.config.tunables.targetUtilization nodeType limits
  unfold countOf
  rw [targets_get? h, Option.getD_some]
  omega

end ControlLoop

namespace Reading

variable {files : FileStore} {now : Nat} {time : Duration} {before : ControlLoop}

theorem targets_get? (r : Reading files now time before) {nodeType : String}
    {limits : TypeLimits Float} (h : r.planner.config.limits.get? nodeType = some limits) :
    r.plan.targets.get? nodeType = some (countOf r.plan.targets nodeType) := by
  have hsome : r.plan.targets.get? nodeType = _ := ControlLoop.targets_get? h
  unfold countOf
  rw [hsome, Option.getD_some]

/-- In every tick, if the busy nodes of a type are within its maximum, they are within its target as
well. But the idle ones with an updater in flight take up room too, and no more: a busy node is
given up exactly if there is no room for both, and a busy one has no updater in flight. -/
theorem busy_given_up_iff (r : Reading files now time before) {nodeType : String}
    {limits : TypeLimits Float} (h : r.planner.config.limits.get? nodeType = some limits)
    (hmax : r.plan.busy nodeType ≤ limits.maxWorkers) :
    r.plan.busy nodeType ≤ countOf r.plan.targets nodeType ∧
      ((∃ e ∈ r.plan.healthy, e.1.nodeType? = some nodeType ∧ ¬ e.2.idle ∧
          e.1.id ∈ r.plan.excess) ↔
        countOf r.plan.targets nodeType <
            r.plan.busy nodeType + r.planner.heldIdle r.plan nodeType ∧
          ∃ e ∈ r.plan.healthy, e.1.nodeType? = some nodeType ∧ ¬ e.2.idle ∧
            ¬ r.planner.isUpdating e.1.id) := by
  refine ⟨ControlLoop.busy_le_targets h hmax, ?_⟩
  have hnodup : (r.plan.healthy.map (·.1.id)).Nodup :=
    ControlLoop.healthy_nodup r.planner now r.nodup
  have htarget := r.targets_get? h
  rw [← ControlLoop.exists_busy_mem_excessOf_iff hnodup]
  constructor
  · rintro ⟨e, he, htype, hbusy, hmem⟩
    exact ⟨e, he, htype, hbusy,
      (ControlLoop.mem_planExcess_iff hnodup htarget he htype).mp hmem⟩
  · rintro ⟨e, he, htype, hbusy, hmem⟩
    exact ⟨e, he, htype, hbusy,
      (ControlLoop.mem_planExcess_iff hnodup htarget he htype).mpr hmem⟩

end Reading

/-- A loop that an idle node `a`, on which an updater is at work, and a busy node `b` report to. -/
def ControlLoop.holdingIdle : ControlLoop :=
  { ofHeadType { maxWorkers := 2 } with
    loads :=
      { records := .ofList
          [(⟨"a"⟩, ⟨∅, .ofList [("CPU", 4)], 1000, 0⟩),
            (⟨"b"⟩, ⟨.ofList [("CPU", 1)], .ofList [("CPU", 3)], 1000, 1000⟩)]
        heartbeatTimeout := 30 }
    updaters := { slots := .ofList [(⟨"a"⟩, ⟨"head", ⟨0⟩, ⟨300⟩, none⟩)] } }

/-- A node of the head type. -/
def NodeRecord.ofHeadType (id : String) : NodeRecord :=
  ⟨⟨id⟩, .ofList [(Tags.nodeType, "head"), (Tags.launchConfig, "launch")], true⟩

namespace Reading

/-- With an idle node on which an updater is at work, a busy node is given up although all busy nodes
are within the maximum of their type. -/
theorem busy_given_up_holdingIdle :
    ∃ (r : Reading .empty 1000 ⟨0⟩ .holdingIdle) (limits : TypeLimits Float),
      r.planner.config.limits.get? "head" = some limits ∧
        r.plan.busy "head" ≤ limits.maxWorkers ∧
          ∃ e ∈ r.plan.healthy, e.1.nodeType? = some "head" ∧ ¬ e.2.idle ∧
            e.1.id ∈ r.plan.excess := by
  obtain ⟨⟨r, _, _, _, _⟩, -, hplanner, hplan, -, -⟩ := Passage.exists_of_nodes .empty 1000 ⟨0⟩
    .holdingIdle [.ofHeadType "a", .ofHeadType "b"] (by decide +kernel)
  refine ⟨r, ⟨0, 2, ∅⟩, ?_⟩
  rw [hplan, hplanner]
  exact ⟨rfl, by decide +kernel, by decide +kernel⟩

/-- There the target leaves no room for the busy node and the idle one together. -/
theorem busy_given_up_iff_holdingIdle :
    ∃ (r : Reading .empty 1000 ⟨0⟩ .holdingIdle) (limits : TypeLimits Float),
      r.planner.config.limits.get? "head" = some limits ∧
        r.plan.busy "head" ≤ limits.maxWorkers ∧
          countOf r.plan.targets "head" <
            r.plan.busy "head" + r.planner.heldIdle r.plan "head" := by
  obtain ⟨⟨r, _, _, _, _⟩, -, hplanner, hplan, -, -⟩ := Passage.exists_of_nodes .empty 1000 ⟨0⟩
    .holdingIdle [.ofHeadType "a", .ofHeadType "b"] (by decide +kernel)
  have hlimits : r.planner.config.limits.get? "head" = some ⟨0, 2, ∅⟩ := by
    rw [hplanner]
    rfl
  have hmax : r.plan.busy "head" ≤ 2 := by
    rw [hplan]
    decide +kernel
  have hgiven : ∃ e ∈ r.plan.healthy, e.1.nodeType? = some "head" ∧ ¬ e.2.idle ∧
      e.1.id ∈ r.plan.excess := by
    rw [hplan]
    decide +kernel
  exact ⟨r, _, hlimits, hmax, ((r.busy_given_up_iff hlimits hmax).2.mp hgiven).1⟩

end Reading

end ClusterScaler
