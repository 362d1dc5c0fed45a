import ClusterScaler.Proofs.Planning.Survivors

/-!
# A tick and its repetition

An unhindered tick is followed by another one that finds what the first left behind, and nothing
else new. All nodes are healthy then, and each type has as many as the first tick wanted. The
second tick packs the demand once more, onto the nodes as they are listed now, and it orders nodes
again exactly if it then calls for more than there are.
-/

set_option autoImplicit false

namespace ClusterScaler

variable {files files' : FileStore} {now : Nat} {time time' : Duration} {before : ControlLoop}

namespace LaunchOrder

theorem Completed.exists_createsNodes {o : LaunchOrder} {trace : List RequestExchange}
    (h : o.Completed trace) (hcount : 0 < o.count) :
    ∃ x ∈ trace, x.op.createsNodes = true := by
  obtain ⟨⟨report, hrun⟩, -⟩ := h
  obtain ⟨count, hsucc⟩ := Nat.exists_eq_succ_of_ne_zero (Nat.ne_of_gt hcount)
  unfold routine at hrun
  rw [hsucc] at hrun
  unfold batches at hrun
  rw [if_pos hcount] at hrun
  cases hrun with
  | ask hrest => exact ⟨_, List.mem_cons_self, rfl⟩

/-- Orders that meet no failure ask for nodes unless there are none. -/
theorem createsNodes_eq_nil_iff {orders : List LaunchOrder} {traces : List (List RequestExchange)}
    (h : List.Forall₂ Completed orders traces) (hcount : ∀ o ∈ orders, 0 < o.count) :
    (traces.flatten.map (·.op)).filter Request.createsNodes = [] ↔ orders = [] := by
  cases h with
  | nil => exact iff_of_true rfl rfl
  | @cons o trace orders traces hcompleted _ =>
    obtain ⟨x, hx, hcreates⟩ := hcompleted.exists_createsNodes (hcount o List.mem_cons_self)
    have hmem : x.op ∈ ((trace :: traces).flatten.map (·.op)).filter Request.createsNodes := by
      refine List.mem_filter.mpr ⟨List.mem_map_of_mem ?_, hcreates⟩
      exact List.mem_flatten.mpr ⟨trace, List.mem_cons_self, hx⟩
    exact iff_of_false (List.ne_nil_of_mem hmem) (List.cons_ne_nil o orders)

end LaunchOrder

namespace ControlLoop

variable {l : ControlLoop}

theorem grant_eq_nil_iff {lacking : List (String × Nat)} {budget : Nat} :
    grant lacking budget = [] ↔ budget = 0 ∨ ∀ d ∈ lacking, d.2 = 0 := by
  induction lacking with
  | nil => simp [grant]
  | cons d rest ih =>
    unfold grant
    dsimp only
    split
    · next hnone =>
      rw [ih, List.forall_mem_cons]
      constructor
      · rintro (hbudget | hrest)
        · exact .inl hbudget
        · by_cases hbudget : budget = 0
          · exact .inl hbudget
          · exact .inr ⟨by omega, hrest⟩
      · rintro (hbudget | ⟨-, hrest⟩)
        · exact .inl hbudget
        · exact .inr hrest
    · next hsome =>
      simp only [reduceCtorEq, false_iff, List.forall_mem_cons]
      rintro (hbudget | ⟨hlack, -⟩)
      · omega
      · omega

theorem pos_of_mem_grant {lacking : List (String × Nat)} {budget : Nat} {d : String × Nat}
    (h : d ∈ grant lacking budget) : 0 < d.2 := by
  induction lacking generalizing budget with
  | nil => exact absurd h List.not_mem_nil
  | cons e rest ih =>
    unfold grant at h
    dsimp only at h
    split at h
    · exact ih h
    · rcases List.mem_cons.mp h with rfl | h
      · dsimp only
        omega
      · exact ih h

theorem count_pos_of_mem_ordersFor {nodes : List NodeRecord} {targets : Table String Nat}
    {o : LaunchOrder} (h : o ∈ l.ordersFor (l.planLaunches nodes targets)) : 0 < o.count := by
  unfold ordersFor at h
  rw [List.mem_filterMap] at h
  obtain ⟨d, hd, ho⟩ := h
  rw [(launchOrder?_eq_some ho).2.1]
  exact pos_of_mem_grant hd

theorem grant_fst_sublist (lacking : List (String × Nat)) (budget : Nat) :
    ((grant lacking budget).map (·.1)).Sublist (lacking.map (·.1)) := by
  induction lacking generalizing budget with
  | nil => exact List.Sublist.refl []
  | cons d rest ih =>
    unfold grant
    dsimp only
    split
    · exact (ih budget).cons d.1
    · exact (ih _).cons_cons d.1

/-- Nothing is ordered exactly if too many nodes do not run yet or no type lacks anything. -/
theorem ordersFor_planLaunches_eq_nil_iff (hashed : l.Hashed) {files : FileStore}
    (hvalid : l.config.validate files = .ok ()) {nodes : List NodeRecord}
    {targets : Table String Nat} :
    l.ordersFor (l.planLaunches nodes targets) = [] ↔
      l.config.tunables.maxConcurrentLaunches ≤ nodes.countP (fun n => !n.running) ∨
        ∀ nodeType ∈ l.config.nodeTypes.keys,
          countOf targets nodeType - nodes.countP (·.nodeType? = some nodeType) = 0 := by
  have hperm := ClusterConfig.nodeTypeOrder_perm hvalid
  have hnames : (l.lacking nodes targets).map (·.1) = l.config.nodeTypeOrder := by
    unfold lacking
    rw [List.map_map]
    exact List.map_id _
  have hordered : l.ordersFor (l.planLaunches nodes targets) = [] ↔
      l.planLaunches nodes targets = [] := by
    constructor
    · intro hnone
      by_contra hsome
      obtain ⟨d, hd⟩ := List.exists_mem_of_ne_nil _ hsome
      have hname := (grant_fst_sublist _ _).subset (List.mem_map_of_mem (f := (·.1)) hd)
      rw [hnames, hperm.mem_iff] at hname
      obtain ⟨o, ho⟩ := exists_launchOrder? hashed hname d.2
      have hmem : o ∈ l.ordersFor (l.planLaunches nodes targets) :=
        List.mem_filterMap.mpr ⟨d, hd, ho⟩
      rw [hnone] at hmem
      exact absurd hmem List.not_mem_nil
    · intro hnone
      rw [hnone]
      rfl
  rw [hordered]
  unfold planLaunches
  dsimp only
  rw [grant_eq_nil_iff, Nat.sub_eq_zero_iff_le]
  apply or_congr_right
  unfold lacking
  rw [List.forall_mem_map]
  simp only [hperm.mem_iff]

end ControlLoop

namespace Passage

variable {p : Passage files now time before}

/-- A tick that follows another one without a failure, and that finds what that one left behind: no
command, no outcome of an updater, no report from a node. -/
structure RepeatedBy (p : Passage files now time before)
    (q : Passage files' now time' p.after) : Prop where
  succeeds : q.Succeeds
  quiet : (p.after.updaters.collect time').1 = []
  leaves : p.Leaves q.nodes

theorem Unhindered.commands_finished (hp : p.Unhindered) :
    p.after.commands = [] ∧ p.after.finished = [] := by
  obtain ⟨hcommands, hfinished⟩ := before.begun_commands_finished files now time
  have hread := hp.succeeds.reading.keeps.1
  have hcarried := (hp.succeeds.carried hp.untripped).1
  exact ⟨hcarried.commands.trans (hread.commands.trans hcommands),
    hcarried.finished.trans (hread.finished.trans hfinished)⟩

/-- The repeated tick plans with what the first one left. -/
theorem Unhindered.after_keeps_repeated (hp : p.Unhindered)
    {q : Passage files' now time' p.after} (hq : p.RepeatedBy q) : p.after.Keeps q.loop := by
  obtain ⟨hcommands, hfinished⟩ := hp.commands_finished
  have hbegun : p.after.Keeps (p.after.begun files' now time').2 :=
    ControlLoop.keeps_begun hcommands hfinished hq.quiet files'
  exact hbegun.trans hq.succeeds.reading.keeps.1

theorem Unhindered.keeps_repeated (hp : p.Unhindered) {q : Passage files' now time' p.after}
    (hq : p.RepeatedBy q) : (p.planner.removeAll p.plan.doomed).Keeps q.loop :=
  (hp.succeeds.carried hp.untripped).1.trans (hp.after_keeps_repeated hq)

/-- The repeated tick finds every node healthy. -/
theorem Unhindered.healthy_repeated (hp : p.Unhindered) {q : Passage files' now time' p.after}
    (hq : p.RepeatedBy q) : q.plan.healthy.map (·.1) = q.nodes := by
  have hkeeps := hp.keeps_repeated hq
  have hafter := hp.after_keeps_repeated hq
  obtain ⟨later, fresh, hperm, hstays, hfresh⟩ := hq.leaves
  have hids : ((p.survivors.map later ++ fresh).map (·.id)).Nodup :=
    (hperm.map (·.id)).nodup q.nodup
  have hhealthy : ∀ n ∈ q.nodes, q.planner.forcedReason now n = none := by
    intro n hn
    rcases List.mem_append.mp (hperm.mem_iff.mp hn) with hkept | hordered
    · obtain ⟨m, hm, rfl⟩ := List.mem_map.mp hkept
      refine ControlLoop.forcedReason_of_stays hkeeps (forcedReason_of_mem_survivors hm)
        (hstays m hm).id (hstays m hm).nodeType ?_
      intro hidle
      apply (hstays m hm).tags
      cases hupdating : p.after.isUpdating m.id with
      | false => rfl
      | true =>
        rw [hafter.updating m.id hupdating] at hidle
        cases hidle
    · obtain ⟨o, ho, htags⟩ := mem_orderedTags (hfresh ▸ List.mem_map_of_mem hordered)
      rw [(hp.succeeds.carried hp.untripped).2] at ho
      exact ControlLoop.forcedReason_of_ordered hkeeps (fun _ h => mem_nodes_of_remembered h) ho
        htags (mem_doomed_of_fresh hids (fun m hm => (hstays m hm).id) hordered)
  have hmap : q.plan.healthy.map (·.1) =
      q.nodes.filter (fun n => (q.planner.forcedReason now n).isNone) :=
    ControlLoop.healthy_map_fst q.planner now q.nodes
  rw [hmap, List.filter_eq_self]
  intro n hn
  rw [hhealthy n hn]
  rfl

/-- The repeated tick finds the nodes of a type that stayed and those that were ordered. -/
theorem Unhindered.live_repeated (hp : p.Unhindered) {q : Passage files' now time' p.after}
    (hq : p.RepeatedBy q) (nodeType : String) :
    q.plan.live nodeType = p.plan.remaining.countP (·.nodeType? = some nodeType) +
      (p.orders.map (LaunchOrder.nodesOf nodeType)).sum := by
  have hlive : q.plan.live nodeType = q.nodes.countP (·.nodeType? = some nodeType) := by
    rw [← hp.healthy_repeated hq, List.countP_map]
    rfl
  have htypes : ∀ o ∈ p.orders, o.tags.get? Tags.nodeType = some o.template.nodeType := by
    rw [(hp.succeeds.carried hp.untripped).2]
    exact fun o ho => ControlLoop.nodeType_of_mem_ordersFor ho
  obtain ⟨later, fresh, hperm, hstays, hfresh⟩ := hq.leaves
  rw [hlive, hperm.countP_eq, List.countP_append, countP_ordered hfresh htypes, List.countP_map,
    ← survivors_eq_remaining]
  congr 1
  apply List.countP_congr
  intro n hn
  rw [Function.comp_apply, (hstays n hn).nodeType]

/-- The repeated tick finds as many nodes of a configured type as the first one wanted. -/
theorem Unhindered.target_le_live_repeated (hp : p.Unhindered)
    {q : Passage files' now time' p.after} (hq : p.RepeatedBy q) {nodeType : String}
    {limits : TypeLimits Float} (h : p.planner.config.limits.get? nodeType = some limits) :
    countOf p.plan.targets nodeType ≤ q.plan.live nodeType := by
  have hlive := hp.live_repeated hq nodeType
  rw [sum_nodesOf_orders hp h] at hlive
  omega

/-- A tick without failures orders nothing exactly if its nodes that do not run yet use the limit on
launches up, or no configured type lacks anything to its target. -/
theorem orders_eq_nil_iff {source : FileStore} (hsucceeds : p.Succeeds)
    (huntripped : p.planner.breaker.tripped = false) (hashed : p.planner.Hashed)
    (hvalid : p.planner.config.validate source = .ok ()) :
    p.orders = [] ↔
      p.planner.config.tunables.maxConcurrentLaunches ≤
          p.plan.remaining.countP (fun n => !n.running) ∨
        ∀ nodeType limits, p.planner.config.limits.get? nodeType = some limits →
          countOf p.plan.targets nodeType ≤ p.plan.live nodeType := by
  have hlacks : ∀ nodeType limits, p.planner.config.limits.get? nodeType = some limits →
      countOf p.plan.targets nodeType - p.plan.remaining.countP (·.nodeType? = some nodeType) =
        countOf p.plan.targets nodeType - p.plan.live nodeType := by
    intro nodeType limits h
    exact ControlLoop.target_sub_remaining (ControlLoop.healthy_nodup p.planner now p.nodup)
      (p.targets_get? h) rfl
  rw [(hsucceeds.carried huntripped).2,
    ControlLoop.ordersFor_planLaunches_eq_nil_iff hashed hvalid]
  apply or_congr_right
  constructor
  · intro h nodeType limits hlimits
    have hlack := h nodeType (ClusterConfig.mem_keys_iff_limits.mpr ⟨limits, hlimits⟩)
    rw [hlacks nodeType limits hlimits] at hlack
    omega
  · intro h nodeType hconfigured
    obtain ⟨limits, hlimits⟩ := ClusterConfig.mem_keys_iff_limits.mp hconfigured
    have hroom := h nodeType limits hlimits
    rw [hlacks nodeType limits hlimits]
    omega

/-- All requests for nodes that a tick makes, itself or through its orders. -/
def creations (p : Passage files now time before) (traces : List (List RequestExchange)) :
    List Request :=
  (p.requests ++ traces.flatten.map (·.op)).filter Request.createsNodes

/-- A tick without failures asks for nodes exactly if it orders some. -/
theorem creations_eq_nil_iff (hsucceeds : p.Succeeds)
    (huntripped : p.planner.breaker.tripped = false) {traces : List (List RequestExchange)}
    (htraces : List.Forall₂ LaunchOrder.Completed p.orders traces) :
    p.creations traces = [] ↔ p.orders = [] := by
  have hpos : ∀ o ∈ p.orders, 0 < o.count := by
    rw [(hsucceeds.carried huntripped).2]
    exact fun o ho => ControlLoop.count_pos_of_mem_ordersFor ho
  have hown : p.requests.filter Request.createsNodes = [] := by
    rw [List.filter_eq_nil_iff]
    intro r hr
    simp [hsucceeds.requests_create_nothing huntripped r hr]
  unfold creations
  rw [List.filter_append, hown, List.nil_append]
  exact LaunchOrder.createsNodes_eq_nil_iff htraces hpos

/-- If an unhindered tick is repeated with nothing new, there are as many nodes of every configured
type as it wanted. But it asks for nodes again unless its pending nodes use the limit on launches
up, or the nodes of every type reach its maximum or cover what the demand, packed once more, and
the utilization call for. -/
theorem Unhindered.repeated_creates_nothing_iff (hp : p.Unhindered)
    {q : Passage files' now time' p.after} (hq : p.RepeatedBy q) {traces : List (List RequestExchange)}
    (htraces : List.Forall₂ LaunchOrder.Completed q.orders traces) :
    (∀ nodeType limits, p.planner.config.limits.get? nodeType = some limits →
      countOf p.plan.targets nodeType ≤ q.plan.live nodeType) ∧
    (q.creations traces = [] ↔
      p.planner.config.tunables.maxConcurrentLaunches ≤
          q.plan.remaining.countP (fun n => !n.running) ∨
        ∀ nodeType limits, p.planner.config.limits.get? nodeType = some limits →
          limits.maxWorkers ≤ q.plan.live nodeType ∨
            q.demandPlan.needed nodeType + countOf q.demandPlan.additions nodeType ≤
                q.plan.live nodeType ∧
              q.ideal nodeType ≤ q.plan.live nodeType) := by
  refine ⟨fun nodeType limits h => hp.target_le_live_repeated hq h, ?_⟩
  obtain ⟨source, hvalid⟩ := hp.valid
  have hkeeps := hp.keeps_repeated hq
  have hconfig : q.planner.config = p.planner.config := hkeeps.config
  have huntripped : q.planner.breaker.tripped = false := hkeeps.tripped.trans hp.untripped
  have hashed : q.planner.Hashed := hp.hashed_planner.congr hkeeps.config hkeeps.hashes
  rw [creations_eq_nil_iff hq.succeeds huntripped htraces,
    orders_eq_nil_iff hq.succeeds huntripped hashed (hconfig ▸ hvalid), hconfig]
  apply or_congr_right
  apply forall_congr'
  intro nodeType
  apply forall_congr'
  intro limits
  apply imp_congr_right
  intro h
  have h' : q.planner.config.limits.get? nodeType = some limits := by
    rw [hconfig]
    exact h
  -- the first tick has brought the type to its minimum, so nothing is planned for it now
  have hmin : limits.minWorkers ≤ q.plan.live nodeType := by
    have htarget : limits.minWorkers ≤ countOf p.plan.targets nodeType := by
      rw [p.countOf_targets h]
      exact p.demandPlan.minWorkers_le_target _ _ (ClusterConfig.limits_of_validate hvalid h)
    exact Nat.le_trans htarget (hp.target_le_live_repeated hq h)
  rw [q.countOf_targets h']
  exact target_le_iff h' _ hmin (q.live_le nodeType)

end Passage

/-- A loop that is asked for room which the one node that reports to it has, and for a whole node. -/
def ControlLoop.partlyUsed : ControlLoop :=
  { ofHeadType { maxWorkers := 3, resources := .ofList [("CPU", 4)] } with
    loads :=
      { records := .ofList
          [(⟨"b"⟩, ⟨.ofList [("CPU", 1)], .ofList [("CPU", 3)], 1000, 1000⟩)]
        heartbeatTimeout := 30 }
    demand := [.ofList [("CPU", 3)], .ofList [("CPU", 4)]] }

/-- The node that is ordered for the second of these, not running yet. -/
def NodeRecord.ordered (id : String) : NodeRecord :=
  ⟨⟨id⟩, ControlLoop.partlyUsed.launchTags "head" ⟨⟨"launch"⟩, ⟨"files"⟩⟩, false⟩

/-- The loop that plans when the tick is repeated. -/
def ControlLoop.partlyUsedAgain (nodes : List NodeRecord) : ControlLoop :=
  ((partlyUsed.afterTick .empty 1000 ⟨0⟩ [.ofHeadType "b"]).begun .empty 1000 ⟨0⟩).2.takeIn
    nodes 1000

namespace Passage

/-- The tick can be repeated with the ordered node listed first or last. -/
theorem exists_repeated_partlyUsed (id : String) (hid : id ≠ "b") {nodes : List NodeRecord}
    (hperm : nodes.Perm [.ofHeadType "b", .ordered id]) :
    ∃ (p : Passage .empty 1000 ⟨0⟩ .partlyUsed) (q : Passage .empty 1000 ⟨0⟩ p.after)
      (traces : List (List RequestExchange)),
      p.Unhindered ∧ p.RepeatedBy q ∧ List.Forall₂ LaunchOrder.Completed q.orders traces ∧
        p.planner.config = ControlLoop.partlyUsed.config ∧ q.planner = .partlyUsedAgain nodes ∧
          q.plan = (ControlLoop.partlyUsedAgain nodes).planTick 1000 nodes := by
  obtain ⟨p, -, hnodes, hplanner, hplan, hafter, hp, -⟩ := exists_unhindered .empty 1000 ⟨0⟩
    .partlyUsed [.ofHeadType "b"] (by decide +kernel) rfl (by decide +kernel)
    (ControlLoop.hashed_ofHeadType _) .empty rfl
  have hnodup : (nodes.map (·.id)).Nodup := by
    rw [(hperm.map (·.id)).nodup_iff]
    simpa [NodeRecord.ofHeadType, NodeRecord.ordered] using hid.symm
  obtain ⟨q, hqnodes, hqplanner, hqplan, -, hq⟩ := exists_of_nodes .empty 1000 ⟨0⟩ p.after
    nodes hnodup
  obtain ⟨traces, htraces⟩ := LaunchOrder.exists_completed q.orders
  have hquiet : (p.after.updaters.collect ⟨0⟩).1 = [] := by
    rw [hafter]
    exact List.isEmpty_iff.mp (by decide +kernel)
  have hsurvivors : p.survivors = [.ofHeadType "b"] := by
    have hdoomed : p.plan.doomed = [] := by
      rw [hplan]
      decide +kernel
    unfold survivors
    rw [hdoomed, hnodes]
    rfl
  have hordered : p.orderedTags = [(NodeRecord.ordered id).tags] := by
    have hlaunches : p.planner.planLaunches p.plan.remaining p.plan.targets = [("head", 1)] := by
      rw [hplan, hplanner]
      decide +kernel
    unfold orderedTags
    rw [(hp.succeeds.carried hp.untripped).2, hlaunches, hplanner]
    rfl
  have hleaves : p.Leaves q.nodes := by
    refine ⟨fun n => n, [.ordered id], ?_, fun n _ => ⟨rfl, rfl, rfl, fun _ => rfl⟩, hordered.symm⟩
    rw [hqnodes, hsurvivors]
    exact hperm
  refine ⟨p, q, traces, hp, ⟨hq, hquiet, hleaves⟩, htraces, ?_, ?_, ?_⟩
  · rw [hplanner]
    rfl
  · rw [hqplanner, hafter]
    rfl
  · rw [hqplan, hafter]
    rfl

/-- If the new node is listed first, the bundle that the old one has room for goes onto it, and one
more node is asked for. -/
theorem creates_again_partlyUsed :
    ∃ (p : Passage .empty 1000 ⟨0⟩ .partlyUsed) (q : Passage .empty 1000 ⟨0⟩ p.after)
      (traces : List (List RequestExchange)),
      p.Unhindered ∧ p.RepeatedBy q ∧ List.Forall₂ LaunchOrder.Completed q.orders traces ∧
        q.creations traces ≠ [] := by
  obtain ⟨p, q, traces, hp, hq, htraces, -, hplanner, hplan⟩ :=
    exists_repeated_partlyUsed "a" (by decide) (List.Perm.swap (NodeRecord.ofHeadType "b") _ [])
  refine ⟨p, q, traces, hp, hq, htraces, ?_⟩
  have huntripped : q.planner.breaker.tripped = false := by
    rw [hplanner]
    decide +kernel
  have hlaunches : q.planner.planLaunches q.plan.remaining q.plan.targets = [("head", 1)] := by
    rw [hplan, hplanner]
    decide +kernel
  rw [ne_eq, creations_eq_nil_iff hq.succeeds huntripped htraces,
    (hq.succeeds.carried huntripped).2, hlaunches, hplanner, ← List.isEmpty_iff]
  decide +kernel

/-- If it is listed last, the first bundle goes where it went before, and nothing is asked for. -/
theorem repeated_creates_nothing_partlyUsed :
    ∃ (p : Passage .empty 1000 ⟨0⟩ .partlyUsed) (q : Passage .empty 1000 ⟨0⟩ p.after)
      (traces : List (List RequestExchange)),
      p.Unhindered ∧ p.RepeatedBy q ∧ List.Forall₂ LaunchOrder.Completed q.orders traces ∧
        q.creations traces = [] := by
  obtain ⟨p, q, traces, hp, hq, htraces, hconfig, hplanner, hplan⟩ :=
    exists_repeated_partlyUsed "c" (by decide) (List.Perm.refl _)
  refine ⟨p, q, traces, hp, hq, htraces,
    (hp.repeated_creates_nothing_iff hq htraces).2.mpr (.inr ?_)⟩
  intro nodeType limits h
  have hkeys : p.planner.config.limits.keys = ["head"] := by
    rw [hconfig]
    rfl
  have hhead : nodeType ∈ p.planner.config.limits.keys := by
    rw [Table.mem_keys_iff, h]
    rfl
  rw [hkeys, List.mem_singleton] at hhead
  subst hhead
  unfold Reading.demandPlan Reading.ideal
  rw [hplan, hplanner]
  exact .inr ⟨by decide +kernel, by decide +kernel⟩

end Passage

end ClusterScaler
