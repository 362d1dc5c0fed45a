import ClusterScaler.Proofs.Config.Validation
import ClusterScaler.Proofs.Planning.Excess
import ClusterScaler.Proofs.Tick.Hashes
import Mathlib.Algebra.BigOperators.Group.List.Basic
import Mathlib.Algebra.GroupWithZero.Nat

/-!
# How many nodes are asked for

A launch order that meets no failure asks for as many nodes as it stands for. If every call of a
tick succeeds and nothing limits its launches, the nodes it asks for of a type are what the type
lacks to its target. So the planned and added nodes of a type are all asked for exactly if its
target does not make up for them with nodes that are not needed.
-/

set_option autoImplicit false

namespace ClusterScaler

open Program

/-- A request with its answer. -/
abbrev RequestExchange := Exchange Request Request.Reply

/-- How many nodes of a type a request asks for. -/
def Request.nodesAsked (nodeType : String) : Request → Nat
  | .createNodes template _ count => if template.nodeType = nodeType then count else 0
  | _ => 0

/-- How many nodes of a type some requests ask for. -/
def nodesAsked (nodeType : String) (trace : List RequestExchange) : Nat :=
  (trace.map (·.op.nodesAsked nodeType)).sum

namespace LaunchOrder

/-- How many nodes of a type an order stands for. -/
def nodesOf (nodeType : String) (o : LaunchOrder) : Nat :=
  if o.template.nodeType = nodeType then o.count else 0

/-- Batches that meet no failure ask for all nodes that are still to come. -/
theorem nodesAsked_batches {o : LaunchOrder} (hbatch : 0 < o.batch) (nodeType : String)
    {fuel launched : Nat} {trace : List RequestExchange} {report : LaunchReport}
    (hfuel : o.count ≤ launched + fuel) (hlaunched : launched ≤ o.count)
    (hrun : Runs (o.batches fuel launched) trace report)
    (hsucceeded : ∀ x ∈ trace, x.op.Succeeded x.reply) :
    nodesAsked nodeType trace =
      if o.template.nodeType = nodeType then o.count - launched else 0 := by
  -- the fuel covers what is still to come, since every batch has at least one node
  induction fuel generalizing launched trace with
  | zero =>
    cases hrun
    have hdone : o.count - launched = 0 := by omega
    rw [hdone, ite_self]
    rfl
  | succ fuel ih =>
    unfold batches at hrun
    split at hrun
    · next hmore =>
      cases hrun with
      | @ask _ _ reply rest _ hnext =>
        have hok := hsucceeded _ List.mem_cons_self
        have hrest : ∀ x ∈ rest, x.op.Succeeded x.reply :=
          fun x hx => hsucceeded x (List.mem_cons_of_mem _ hx)
        cases reply with
        | error e => cases hok
        | ok _ =>
          have hasked := ih (by omega) (by omega) hnext hrest
          unfold nodesAsked at hasked ⊢
          rw [List.map_cons, List.sum_cons, hasked]
          unfold Request.nodesAsked
          dsimp only
          split
          · omega
          · rfl
    · cases hrun
      have hdone : o.count - launched = 0 := by omega
      rw [hdone, ite_self]
      rfl

/-- A launch order that meets no failure asks for as many nodes as it stands for. -/
theorem nodesAsked_routine {o : LaunchOrder} (hbatch : 0 < o.batch) (nodeType : String)
    {trace : List RequestExchange} {report : LaunchReport} (hrun : Runs o.routine trace report)
    (hsucceeded : ∀ x ∈ trace, x.op.Succeeded x.reply) :
    nodesAsked nodeType trace = o.nodesOf nodeType :=
  nodesAsked_batches hbatch nodeType (Nat.le_add_left _ _) (Nat.zero_le _) hrun hsucceeded

/-- The requests of an order that has met no failure. -/
def Completed (o : LaunchOrder) (trace : List RequestExchange) : Prop :=
  (∃ report, Runs o.routine trace report) ∧ ∀ x ∈ trace, x.op.Succeeded x.reply

theorem exists_completed (orders : List LaunchOrder) :
    ∃ traces, List.Forall₂ Completed orders traces := by
  induction orders with
  | nil => exact ⟨[], .nil⟩
  | cons o rest ih =>
    obtain ⟨traces, htraces⟩ := ih
    obtain ⟨hrun, hanswers⟩ := runs_replay Request.succeed o.routine
    refine ⟨_ :: traces, .cons ⟨⟨_, hrun⟩, ?_⟩ htraces⟩
    intro x hx
    rw [hanswers x hx]
    exact x.op.succeeded_succeed

/-- Orders that meet no failure ask for as many nodes as they stand for. -/
theorem nodesAsked_flatten {orders : List LaunchOrder} {traces : List (List RequestExchange)}
    (h : List.Forall₂ Completed orders traces) (hbatch : ∀ o ∈ orders, 0 < o.batch)
    (nodeType : String) :
    nodesAsked nodeType traces.flatten = (orders.map (nodesOf nodeType)).sum := by
  induction h with
  | nil => rfl
  | @cons o trace orders traces hcompleted _ ih =>
    obtain ⟨⟨report, hrun⟩, hsucceeded⟩ := hcompleted
    have hone := nodesAsked_routine (hbatch o List.mem_cons_self) nodeType hrun hsucceeded
    have hrest := ih (fun o' ho' => hbatch o' (List.mem_cons_of_mem _ ho'))
    unfold nodesAsked at hone hrest ⊢
    rw [List.flatten_cons, List.map_append, List.sum_append, hone, hrest]
    rfl

end LaunchOrder

theorem ClusterConfig.limits_of_validate {c : ClusterConfig} {files : FileStore}
    (h : c.validate files = .ok ()) {nodeType : String} {limits : TypeLimits Float}
    (hlimits : c.limits.get? nodeType = some limits) :
    limits.minWorkers ≤ limits.maxWorkers := by
  unfold ClusterConfig.limits at hlimits
  rw [Table.get?_mapValues] at hlimits
  obtain ⟨t, ht, rfl⟩ := Option.map_eq_some_iff.mp hlimits
  exact minWorkers_le_maxWorkers h ht

/-- The configured types are those that have limits. -/
theorem ClusterConfig.mem_keys_iff_limits {c : ClusterConfig} {nodeType : String} :
    nodeType ∈ c.nodeTypes.keys ↔ ∃ limits, c.limits.get? nodeType = some limits := by
  have hkeys : c.limits.keys = c.nodeTypes.keys := Table.keys_mapValues
  rw [← hkeys, Table.mem_keys_iff, Option.isSome_iff_exists]

namespace ControlLoop

variable {l : ControlLoop}

/-- A launch order is for nodes of its type, as many as it was made for, in batches up to the limit,
which are not empty. -/
theorem launchOrder?_eq_some {nodeType : String} {count : Nat} {o : LaunchOrder}
    (h : l.launchOrder? nodeType count = some o) :
    o.template.nodeType = nodeType ∧ o.count = count ∧
      o.batch = max l.config.tunables.maxLaunchBatch 1 := by
  unfold launchOrder? LaunchConfig.ofNodeType? at h
  cases htype : l.config.nodeType? nodeType with
  | none =>
    rw [htype] at h
    cases h
  | some t =>
    rw [htype] at h
    cases hhashes : l.hashes.get? nodeType with
    | none =>
      rw [hhashes] at h
      cases h
    | some hashes =>
      rw [hhashes] at h
      cases h
      exact ⟨rfl, rfl, rfl⟩

/-- Every configured type can be ordered. -/
theorem exists_launchOrder? (h : l.Hashed) {nodeType : String}
    (hconfigured : nodeType ∈ l.config.nodeTypes.keys) (count : Nat) :
    ∃ o, l.launchOrder? nodeType count = some o := by
  rw [Table.mem_keys_iff] at hconfigured
  obtain ⟨t, ht⟩ := Option.isSome_iff_exists.mp hconfigured
  obtain ⟨hashes, hfound⟩ := Option.isSome_iff_exists.mp ((h nodeType).mpr hconfigured)
  have htype : l.config.nodeType? nodeType = some t := ht
  unfold launchOrder? LaunchConfig.ofNodeType?
  rw [htype, hfound]
  exact ⟨_, rfl⟩

/-- Configured types get an order each, for as many nodes as they lack. -/
theorem map_ordersFor (h : l.Hashed) {deficits : List (String × Nat)}
    (hconfigured : ∀ d ∈ deficits, d.1 ∈ l.config.nodeTypes.keys) :
    (l.ordersFor deficits).map (fun o => (o.template.nodeType, o.count)) = deficits := by
  induction deficits with
  | nil => rfl
  | cons d rest ih =>
    obtain ⟨o, ho⟩ := exists_launchOrder? h (hconfigured d List.mem_cons_self) d.2
    obtain ⟨htype, hcount, -⟩ := launchOrder?_eq_some ho
    have hcons : l.ordersFor (d :: rest) = o :: l.ordersFor rest := List.filterMap_cons_some ho
    rw [hcons, List.map_cons, htype, hcount,
      ih fun e he => hconfigured e (List.mem_cons_of_mem _ he)]

/-- Orders for configured types ask for what the types lack. -/
theorem nodesOf_ordersFor (h : l.Hashed) {deficits : List (String × Nat)}
    (hconfigured : ∀ d ∈ deficits, d.1 ∈ l.config.nodeTypes.keys) (nodeType : String) :
    ((l.ordersFor deficits).map (LaunchOrder.nodesOf nodeType)).sum =
      (deficits.map (fun d => if d.1 = nodeType then d.2 else 0)).sum := by
  conv_rhs => rw [← map_ordersFor h hconfigured, List.map_map]
  rfl

/-- Orders come to no more than what they are made for, if each of them does. -/
theorem sum_ordersFor_le {f : LaunchOrder → Nat} {g : String × Nat → Nat}
    (h : ∀ d o, l.launchOrder? d.1 d.2 = some o → f o ≤ g d) (deficits : List (String × Nat)) :
    ((l.ordersFor deficits).map f).sum ≤ (deficits.map g).sum := by
  induction deficits with
  | nil => exact Nat.le_refl _
  | cons d rest ih =>
    rw [List.map_cons, List.sum_cons]
    cases ho : l.launchOrder? d.1 d.2 with
    | none =>
      have hcons : l.ordersFor (d :: rest) = l.ordersFor rest := List.filterMap_cons_none ho
      rw [hcons]
      exact Nat.le_trans ih (Nat.le_add_left _ _)
    | some o =>
      have hcons : l.ordersFor (d :: rest) = o :: l.ordersFor rest :=
        List.filterMap_cons_some ho
      rw [hcons, List.map_cons, List.sum_cons]
      exact Nat.add_le_add (h d o ho) ih

theorem nodesOf_ordersFor_le (l : ControlLoop) (deficits : List (String × Nat)) (nodeType : String) :
    ((l.ordersFor deficits).map (LaunchOrder.nodesOf nodeType)).sum ≤
      (deficits.map (fun d => if d.1 = nodeType then d.2 else 0)).sum := by
  refine sum_ordersFor_le (fun d o ho => Nat.le_of_eq ?_) deficits
  obtain ⟨htype, hcount, -⟩ := launchOrder?_eq_some ho
  unfold LaunchOrder.nodesOf
  rw [htype, hcount]

theorem count_ordersFor_le (l : ControlLoop) (deficits : List (String × Nat)) :
    ((l.ordersFor deficits).map (·.count)).sum ≤ (deficits.map (·.2)).sum :=
  sum_ordersFor_le (fun _ _ ho => Nat.le_of_eq (launchOrder?_eq_some ho).2.1) deficits

theorem batch_of_mem_ordersFor {deficits : List (String × Nat)} {o : LaunchOrder}
    (h : o ∈ l.ordersFor deficits) : o.batch = max l.config.tunables.maxLaunchBatch 1 := by
  unfold ordersFor at h
  rw [List.mem_filterMap] at h
  obtain ⟨d, -, hd⟩ := h
  exact (launchOrder?_eq_some hd).2.2

theorem batch_pos_of_mem_ordersFor {deficits : List (String × Nat)} {o : LaunchOrder}
    (h : o ∈ l.ordersFor deficits) : 0 < o.batch := by
  rw [batch_of_mem_ordersFor h]
  exact Nat.le_max_right _ 1

/-- In an accepted configuration, each type lacks what its target exceeds its nodes by. -/
theorem sum_lacking {files : FileStore} (h : l.config.validate files = .ok ())
    {nodeType : String} (hconfigured : nodeType ∈ l.config.nodeTypes.keys)
    (nodes : List NodeRecord) (targets : Table String Nat) :
    ((l.lacking nodes targets).map (fun d => if d.1 = nodeType then d.2 else 0)).sum =
      countOf targets nodeType - nodes.countP (·.nodeType? = some nodeType) := by
  have hperm := ClusterConfig.nodeTypeOrder_perm h
  have honce : l.config.nodeTypeOrder.count nodeType = 1 :=
    List.count_eq_one_of_mem (hperm.symm.nodup l.config.nodeTypes.keys_nodup)
      (hperm.mem_iff.mpr hconfigured)
  unfold lacking
  rw [List.map_map, List.sum_map_eq_nsmul_single nodeType, honce, one_nsmul, Function.comp_apply,
    if_pos rfl]
  intro other hother _
  exact if_neg hother

theorem mem_keys_of_mem_lacking {files : FileStore} (h : l.config.validate files = .ok ())
    {nodes : List NodeRecord} {targets : Table String Nat} {d : String × Nat}
    (hd : d ∈ l.lacking nodes targets) : d.1 ∈ l.config.nodeTypes.keys := by
  unfold lacking at hd
  rw [List.mem_map] at hd
  obtain ⟨t, ht, rfl⟩ := hd
  exact (ClusterConfig.nodeTypeOrder_perm h).mem_iff.mp ht

theorem sum_filter_lacking (lacking : List (String × Nat)) (nodeType : String) :
    ((lacking.filter (fun d => 0 < d.2)).map (fun d => if d.1 = nodeType then d.2 else 0)).sum =
      (lacking.map (fun d => if d.1 = nodeType then d.2 else 0)).sum := by
  induction lacking with
  | nil => rfl
  | cons d rest ih =>
    rw [List.map_cons, List.sum_cons, ← ih]
    by_cases hd : 0 < d.2
    · rw [List.filter_cons_of_pos (by simpa using hd), List.map_cons, List.sum_cons]
    · have hzero : (if d.1 = nodeType then d.2 else 0) = 0 := by
        have hnone : d.2 = 0 := by omega
        rw [hnone, ite_self]
      rw [List.filter_cons_of_neg (by simpa using hd), hzero, Nat.zero_add]

/-- Nothing that the types lack is put off. -/
def Undeferred (l : ControlLoop) (p : TickPlan) : Prop :=
  l.planLaunches p.remaining p.targets =
    (l.lacking p.remaining p.targets).filter (fun d => 0 < d.2)

instance (l : ControlLoop) (p : TickPlan) : Decidable (l.Undeferred p) :=
  inferInstanceAs (Decidable (_ = _))

theorem grant_cons (d : String × Nat) (rest : List (String × Nat)) (budget : Nat) :
    grant (d :: rest) budget =
      if min d.2 budget = 0 then grant rest budget
      else (d.1, min d.2 budget) :: grant rest (budget - min d.2 budget) := rfl

/-- All that the types lack is granted, up to the budget. -/
theorem sum_grant (lacking : List (String × Nat)) (budget : Nat) :
    ((grant lacking budget).map (·.2)).sum = min (lacking.map (·.2)).sum budget := by
  induction lacking generalizing budget with
  | nil => exact (Nat.zero_min budget).symm
  | cons d rest ih =>
    rw [grant_cons, List.map_cons, List.sum_cons]
    split
    · rw [ih]
      omega
    · rw [List.map_cons, List.sum_cons, ih]
      omega

/-- No more is granted than the budget. -/
theorem sum_grant_le (lacking : List (String × Nat)) (budget : Nat) :
    ((grant lacking budget).map (·.2)).sum ≤ budget := by
  rw [sum_grant]
  exact Nat.min_le_right _ _

/-- No type is granted more than it lacks. -/
theorem sum_grant_le_lacking (lacking : List (String × Nat)) (budget : Nat) (nodeType : String) :
    ((grant lacking budget).map (fun d => if d.1 = nodeType then d.2 else 0)).sum ≤
      (lacking.map (fun d => if d.1 = nodeType then d.2 else 0)).sum := by
  induction lacking generalizing budget with
  | nil => exact Nat.le_refl _
  | cons d rest ih =>
    unfold grant
    dsimp only
    rw [List.map_cons, List.sum_cons]
    split
    · exact Nat.le_trans (ih budget) (Nat.le_add_left _ _)
    · have hrest := ih (budget - min d.2 budget)
      have hhead : (if d.1 = nodeType then min d.2 budget else 0) ≤
          if d.1 = nodeType then d.2 else 0 := by split <;> omega
      rw [List.map_cons, List.sum_cons]
      exact Nat.add_le_add hhead hrest

/-- A budget for all that is lacking grants all of it. -/
theorem grant_of_sum_le {lacking : List (String × Nat)} {budget : Nat}
    (h : (lacking.map (·.2)).sum ≤ budget) :
    grant lacking budget = lacking.filter (fun d => 0 < d.2) := by
  induction lacking generalizing budget with
  | nil => rfl
  | cons d rest ih =>
    rw [List.map_cons, List.sum_cons] at h
    have hgranted : min d.2 budget = d.2 := by omega
    unfold grant
    dsimp only
    rw [hgranted]
    split
    · next hnone =>
      rw [List.filter_cons_of_neg (by simp [hnone])]
      exact ih (by omega)
    · next hsome =>
      rw [List.filter_cons_of_pos (by simp; omega), ih (by omega)]

/-- If the limit on launches leaves room for all that the types lack, nothing is put off. -/
theorem undeferred_of_sum_le {p : TickPlan}
    (h : ((l.lacking p.remaining p.targets).map (·.2)).sum ≤
      l.config.tunables.maxConcurrentLaunches - p.remaining.countP (fun n => !n.running)) :
    l.Undeferred p :=
  grant_of_sum_le h

end ControlLoop

variable {files : FileStore} {now : Nat} {time : Duration} {before : ControlLoop}

namespace Reading

/-- What the tick found out about its demand. -/
def demandPlan (r : Reading files now time before) : DemandPlan Float :=
  planDemand r.planner.config.limits (r.plan.healthy.map (·.2)) r.planner.demand

/-- The nodes a type should have for its utilization. -/
def ideal (r : Reading files now time before) (nodeType : String) : Nat :=
  idealCount (r.plan.healthy.map (·.2)) r.planner.config.tunables.targetUtilization nodeType

/-- Nothing that the types lack is put off. -/
def Undeferred (r : Reading files now time before) : Prop := r.planner.Undeferred r.plan

theorem countOf_targets (r : Reading files now time before) {nodeType : String}
    {limits : TypeLimits Float} (h : r.planner.config.limits.get? nodeType = some limits) :
    countOf r.plan.targets nodeType = r.demandPlan.target (r.plan.healthy.map (·.2))
      r.planner.config.tunables.targetUtilization nodeType limits := by
  have htarget : r.plan.targets.get? nodeType = _ := ControlLoop.targets_get? h
  unfold countOf
  rw [htarget]
  rfl

theorem live_le (r : Reading files now time before) (nodeType : String) :
    r.plan.live nodeType ≤
      (r.plan.healthy.map (·.2)).countP (·.nodeType == nodeType) := by
  rw [List.countP_map]
  apply List.countP_mono_left
  intro e he htype
  have hmem : e ∈ r.planner.healthyOf now r.nodes := he
  unfold ControlLoop.healthyOf at hmem
  rw [List.mem_map] at hmem
  obtain ⟨n, -, rfl⟩ := hmem
  have hname : (r.planner.capacityOf now n).nodeType = nodeType :=
    ControlLoop.capacityOf_nodeType (of_decide_eq_true htype)
  simp [hname]

end Reading

namespace Passage

/-- A tick without failures of which nothing is put off, neither by the breaker nor by the limit on
launches. -/
structure Unhindered (p : Passage files now time before) : Prop where
  succeeds : p.Succeeds
  untripped : p.planner.breaker.tripped = false
  undeferred : p.Undeferred
  hashed : before.Hashed
  valid : ∃ source, p.planner.config.validate source = .ok ()

variable {p : Passage files now time before} {nodeType : String} {limits : TypeLimits Float}
  {traces : List (List RequestExchange)}

theorem Unhindered.hashed_planner (hp : p.Unhindered) : p.planner.Hashed := by
  have hkeeps := hp.succeeds.reading.keeps.1
  exact (hp.hashed.begun files now time).congr hkeeps.config hkeeps.hashes

/-- In an unhindered tick, the orders for nodes of a type stand for what it lacks to its target once
nodes were given up. -/
theorem sum_nodesOf_orders (hp : p.Unhindered)
    (h : p.planner.config.limits.get? nodeType = some limits) :
    (p.orders.map (LaunchOrder.nodesOf nodeType)).sum =
      countOf p.plan.targets nodeType -
        p.plan.remaining.countP (·.nodeType? = some nodeType) := by
  obtain ⟨source, hvalid⟩ := hp.valid
  have hconfigured : nodeType ∈ p.planner.config.nodeTypes.keys :=
    ClusterConfig.mem_keys_iff_limits.mpr ⟨limits, h⟩
  have hundeferred : p.planner.planLaunches p.plan.remaining p.plan.targets =
      (p.planner.lacking p.plan.remaining p.plan.targets).filter (fun d => 0 < d.2) :=
    hp.undeferred
  rw [(hp.succeeds.carried hp.untripped).2, hundeferred,
    ControlLoop.nodesOf_ordersFor hp.hashed_planner
      (fun d hd => ControlLoop.mem_keys_of_mem_lacking hvalid (List.mem_of_mem_filter hd)),
    ControlLoop.sum_filter_lacking, ControlLoop.sum_lacking hvalid hconfigured]

/-- In an unhindered tick, the nodes asked for of a type are what it lacks to its target. -/
theorem nodesAsked_eq (hp : p.Unhindered)
    (h : p.planner.config.limits.get? nodeType = some limits)
    (htraces : List.Forall₂ LaunchOrder.Completed p.orders traces) :
    nodesAsked nodeType traces.flatten =
      countOf p.plan.targets nodeType - p.plan.live nodeType := by
  have hbatch : ∀ o ∈ p.orders, 0 < o.batch := by
    rw [(hp.succeeds.carried hp.untripped).2]
    exact fun o ho => ControlLoop.batch_pos_of_mem_ordersFor ho
  rw [LaunchOrder.nodesAsked_flatten htraces hbatch, sum_nodesOf_orders hp h]
  exact ControlLoop.target_sub_remaining (ControlLoop.healthy_nodup p.planner now p.nodup)
    (p.targets_get? h) rfl

/-- In an unhindered tick, all planned and added nodes of a type are asked for unless some are added,
some live ones are not needed, and neither the utilization nor the minimum calls for as many. -/
theorem planned_add_additions_le_nodesAsked_iff (hp : p.Unhindered)
    (h : p.planner.config.limits.get? nodeType = some limits)
    (htraces : List.Forall₂ LaunchOrder.Completed p.orders traces) :
    countOf p.demandPlan.planned nodeType + countOf p.demandPlan.additions nodeType ≤
        nodesAsked nodeType traces.flatten ↔
      countOf p.demandPlan.additions nodeType = 0 ∨
        p.plan.live nodeType ≤ p.demandPlan.needed nodeType ∨
          p.plan.live nodeType + countOf p.demandPlan.planned nodeType +
              countOf p.demandPlan.additions nodeType ≤
            max (p.ideal nodeType) limits.minWorkers := by
  rw [nodesAsked_eq hp h htraces]
  obtain ⟨source, hvalid⟩ := hp.valid
  have hlimits := ClusterConfig.limits_of_validate hvalid h
  rw [p.countOf_targets h]
  exact le_target_sub_iff h hlimits _ (p.live_le nodeType)

/-- Every list of distinct nodes is what some unhindered tick reads, as far as its plan allows. -/
theorem exists_unhindered (files : FileStore) (now : Nat) (time : Duration) (before : ControlLoop)
    (nodes : List NodeRecord) (hnodup : (nodes.map (·.id)).Nodup)
    (huntripped : ((before.begun files now time).2.takeIn nodes now).breaker.tripped = false)
    (hundeferred : ((before.begun files now time).2.takeIn nodes now).Undeferred
      (((before.begun files now time).2.takeIn nodes now).planTick now nodes))
    (hashed : before.Hashed) (source : FileStore)
    (hvalid : ((before.begun files now time).2.takeIn nodes now).config.validate source = .ok ()) :
    ∃ (p : Passage files now time before) (traces : List (List RequestExchange)),
      p.nodes = nodes ∧ p.planner = (before.begun files now time).2.takeIn nodes now ∧
        p.plan = ((before.begun files now time).2.takeIn nodes now).planTick now nodes ∧
          p.after = before.afterTick files now time nodes ∧
            p.Unhindered ∧ List.Forall₂ LaunchOrder.Completed p.orders traces := by
  obtain ⟨p, hnodes, hplanner, hplan, hafter, hsucceeds⟩ :=
    exists_of_nodes files now time before nodes hnodup
  obtain ⟨traces, htraces⟩ := LaunchOrder.exists_completed p.orders
  refine ⟨p, traces, hnodes, hplanner, hplan, hafter, ⟨hsucceeds, ?_, ?_, hashed, source, ?_⟩,
    htraces⟩
  · rw [hplanner]
    exact huntripped
  · unfold Reading.Undeferred
    rw [hplan, hplanner]
    exact hundeferred
  · rw [hplanner]
    exact hvalid

end Passage

/-- A loop that is asked for room which the one node that reports to it has not. The node was last in
use at the given time. -/
def ControlLoop.shortOfRoom (lastUsed : Nat) : ControlLoop :=
  { ofHeadType { maxWorkers := 2, resources := .ofList [("CPU", 4)] } with
    loads :=
      { records := .ofList [(⟨"a"⟩, ⟨∅, .ofList [("CPU", 1)], 1000, lastUsed⟩)]
        heartbeatTimeout := 30 }
    demand := [.ofList [("CPU", 2)]] }

namespace Passage

/-- A node is added for the demand, but none is asked for: the one node is idle, and not needed since
it has no room, yet it makes up for the added one. -/
theorem additions_not_asked_for_shortOfRoom :
    ∃ (p : Passage .empty 1000 ⟨0⟩ (.shortOfRoom 0)) (limits : TypeLimits Float)
      (traces : List (List RequestExchange)),
      p.Unhindered ∧ p.planner.config.limits.get? "head" = some limits ∧
        List.Forall₂ LaunchOrder.Completed p.orders traces ∧
          countOf p.demandPlan.additions "head" = 1 ∧ nodesAsked "head" traces.flatten = 0 := by
  obtain ⟨p, traces, -, hplanner, hplan, -, hp, htraces⟩ := exists_unhindered .empty 1000 ⟨0⟩
    (.shortOfRoom 0) [.ofHeadType "a"] (by decide +kernel) rfl (by decide +kernel)
    (ControlLoop.hashed_ofHeadType _) .empty rfl
  have hlimits : p.planner.config.limits.get? "head" =
      some ⟨0, 2, .ofList [("CPU", 4)]⟩ := by
    rw [hplanner]
    rfl
  refine ⟨p, _, traces, hp, hlimits, htraces, ?_, ?_⟩
  · unfold Reading.demandPlan
    rw [hplan, hplanner]
    decide +kernel
  · rw [nodesAsked_eq hp hlimits htraces, hplan]
    decide +kernel

/-- Were the node in use, and so needed, the added one would be asked for. -/
theorem planned_add_additions_le_nodesAsked_shortOfRoom :
    ∃ (p : Passage .empty 1000 ⟨0⟩ (.shortOfRoom 1000)) (limits : TypeLimits Float)
      (traces : List (List RequestExchange)),
      p.Unhindered ∧ p.planner.config.limits.get? "head" = some limits ∧
        List.Forall₂ LaunchOrder.Completed p.orders traces ∧
          countOf p.demandPlan.planned "head" + countOf p.demandPlan.additions "head" ≤
            nodesAsked "head" traces.flatten := by
  obtain ⟨p, traces, -, hplanner, hplan, -, hp, htraces⟩ := exists_unhindered .empty 1000 ⟨0⟩
    (.shortOfRoom 1000) [.ofHeadType "a"] (by decide +kernel) rfl (by decide +kernel)
    (ControlLoop.hashed_ofHeadType _) .empty rfl
  have hlimits : p.planner.config.limits.get? "head" =
      some ⟨0, 2, .ofList [("CPU", 4)]⟩ := by
    rw [hplanner]
    rfl
  have hneeded : p.plan.live "head" ≤ p.demandPlan.needed "head" := by
    unfold Reading.demandPlan
    rw [hplan, hplanner]
    decide +kernel
  exact ⟨p, _, traces, hp, hlimits, htraces,
    (planned_add_additions_le_nodesAsked_iff hp hlimits htraces).mpr (.inr (.inl hneeded))⟩

end Passage

end ClusterScaler
