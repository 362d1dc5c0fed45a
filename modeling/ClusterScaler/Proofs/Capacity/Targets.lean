import ClusterScaler.Proofs.Capacity.Counts

/-!
# Ticks that reach their targets

After a tick that meets no failure and puts no launch off, a type has as many live nodes as its
target says, or as had updaters in flight if those are more. Of a type that is not configured, only
nodes with an updater in flight are left.
-/

set_option autoImplicit false

namespace ClusterScaler

open Program InMemory

/-- Live nodes of a cluster without a configured type and without an updater in flight. -/
def stray (l : ControlLoop) : NodeId → Node → Bool :=
  fun id n => listed (.ofCluster l.config.clusterName) id n &&
    !((n.tags.get? Tags.nodeType).any l.config.nodeTypes.contains || l.isUpdating id)

/-- Tags with a configured type. -/
def ofConfiguredType (l : ControlLoop) (tags : Tags) : Prop :=
  (tags.get? Tags.nodeType).any l.config.nodeTypes.contains = true

/-- No new node of a configured type is astray. -/
theorem measured_stray (l : ControlLoop) :
    Measured LE.le (stray l) (ofConfiguredType l) (fun _ => false) := by
  refine ⟨fun {p p'} htended => ?_, fun tags phase htags _ =>
    ⟨false, fun id address => ?_, fun n => Nat.le_refl _⟩⟩
  · apply holds_le_holds
    intro id n' hn' hstray
    obtain ⟨n, hn, hdead⟩ := htended.same id n' hn'
    obtain ⟨m, hm, hbecomes⟩ := htended.onward id n hn
    obtain rfl := Option.some.inj (hm.symm.trans hn')
    have htype : m.tags.get? Tags.nodeType = n.tags.get? Tags.nodeType :=
      hbecomes.tags _ (by rintro (h | h) <;> exact absurd h (by decide))
    have hcluster := (Tags.lasting_ofCluster l.config.clusterName).satisfies_congr hbecomes.tags
    simp only [stray, listed, Bool.and_eq_true, bne_iff_ne] at hstray ⊢
    rw [htype, hcluster] at hstray
    exact ⟨n, hn, ⟨fun hphase => hstray.1.1 (hbecomes.terminated hphase), hstray.1.2⟩, hstray.2⟩
  · have hconfigured : (tags.get? Tags.nodeType).any l.config.nodeTypes.contains = true := htags
    simp [stray, hconfigured]

namespace Passage

variable {files : FileStore} {now : Nat} {time : Duration} {before : ControlLoop}
  {p : Passage files now time before} {nodeType : String} {limits : TypeLimits Float}

/-- What remains of a type: its target or the nodes with an updater in flight, as far as there are as
many. -/
theorem max_target_remaining (h : p.planner.config.limits.get? nodeType = some limits) :
    max (countOf p.plan.targets nodeType)
        (p.plan.remaining.countP (·.nodeType? = some nodeType)) =
      max (countOf p.plan.targets nodeType)
        (p.nodes.countP (fun n => n.nodeType? = some nodeType ∧ p.planner.isUpdating n.id)) := by
  have hnodup := ControlLoop.healthy_nodup p.planner now p.nodup
  have htarget : p.plan.targets.get? nodeType = some (countOf p.plan.targets nodeType) :=
    p.targets_get? h
  have hremaining : p.plan.remaining.countP (·.nodeType? = some nodeType) =
      p.plan.live nodeType - min (p.plan.live nodeType - countOf p.plan.targets nodeType)
        (p.plan.live nodeType - p.planner.held p.plan nodeType) :=
    ControlLoop.countP_remaining hnodup htarget rfl
  have hhealthy : p.plan.healthy.map (·.1) =
      p.nodes.filter (fun n => (p.planner.forcedReason now n).isNone) :=
    ControlLoop.healthy_map_fst p.planner now p.nodes
  have hheld : p.planner.held p.plan nodeType =
      p.nodes.countP (fun n => n.nodeType? = some nodeType ∧ p.planner.isUpdating n.id) := by
    have hmap : p.planner.held p.plan nodeType = (p.plan.healthy.map (·.1)).countP
        (fun n => n.nodeType? = some nodeType ∧ p.planner.isUpdating n.id) := by
      rw [List.countP_map]
      rfl
    rw [hmap, hhealthy, List.countP_filter]
    apply List.countP_congr
    intro n _
    simp only [Bool.and_eq_true, decide_eq_true_eq]
    refine ⟨fun h => h.1, fun h => ⟨h, ?_⟩⟩
    rw [ControlLoop.forcedReason_of_isUpdating h.2]
    rfl
  have hle : p.planner.held p.plan nodeType ≤ p.plan.live nodeType := by
    apply List.countP_mono_left
    simp only [decide_eq_true_eq]
    exact fun e _ he => he.1
  rw [hremaining, ← hheld]
  omega

/-- A record outside the plan's remaining ones is doomed. -/
theorem mem_remaining_iff {n : NodeRecord} :
    n ∈ p.plan.remaining ↔ n ∈ p.nodes ∧ n.id ∉ p.plan.doomed := by
  rw [← survivors_eq_remaining]
  unfold survivors
  simp

/-- What a tick leaves at the service: `s₁` is how it comes to its launches, with the remaining nodes
live in the cluster, and from there on every count changes by what is ordered. -/
structure Launched (p : Passage files now time before) (s₁ s' : Service) : Prop where
  remaining : ∀ {filter : Tags}, filter.Lasting →
    (∀ tags : Tags, tags.satisfies filter = true →
      tags.satisfies (.ofCluster p.planner.config.clusterName) = true) →
    ∀ id, id ∈ s₁.provider.listNodes filter ↔
      ∃ n ∈ p.plan.remaining, n.id = id ∧ n.tags.satisfies filter = true
  cluster : ∀ n ∈ p.plan.remaining,
    n.tags.satisfies (.ofCluster p.planner.config.clusterName) = true
  ordered : ∀ {R : Nat → Nat → Prop} {f : NodeId → Node → Bool} {T : Tags → Prop} {c : Tags → Bool},
    Comparison R → Measured R f T c → (∀ o ∈ p.orders, T o.tags) →
      R (s'.provider.holds f) (s₁.provider.holds f + owed c (p.orders.map LaunchOrder.debt))

/-- A tick without failures leaves its service so. -/
theorem Succeeds.exists_launched (hsucceeds : p.Succeeds)
    (huntripped : p.planner.breaker.tripped = false) {s s' : Service} (hsound : s.Sound)
    (hnone : s.launches = [])
    (hfollows : Follows (Service.protocol tending) s
      (before.firstExchange files time :: (p.trace ++ p.rest)) s') :
    ∃ s₁, p.Launched s₁ s' := by
  obtain ⟨m, l, first, rest, hsplit, hfirst, hrest, hplanner, hnodes, hplan⟩ := p.exists_midway
  have hall : ∀ x ∈ first ++ rest, Succeeded x := by
    rw [← hsplit]
    rintro x (_ | ⟨_, hx⟩)
    · trivial
    · exact hsucceeds x hx
  rw [hsplit] at hfollows
  obtain ⟨s₁, hto, hfrom⟩ := follows_append.mp hfollows
  have hplanned := (Tick.toLaunches_planned files now time before).result hfirst
    (follows_unwatched first) m rfl
  have horders : l.ordersFor (m.planner.planLaunches m.plan.remaining m.plan.targets) =
      p.orders := by
    rw [(hsucceeds.carried huntripped).2, hplanner, hplan]
    unfold ControlLoop.ordersFor ControlLoop.launchOrder? ControlLoop.launchTags
    rw [hplanned.config, hplanned.hashes, hplanner]
  -- up to the launches, everything is read and all doomed nodes are terminated
  have hquiet : Service.Quiet s.provider s := ⟨hsound, hnone, .refl _⟩
  have hsmoothly : Follows (attended fun a r => a.question.Succeeded r) s first s₁ :=
    hto.restrict (fun x hx => hall x (List.mem_append_left _ hx))
  obtain ⟨hsurveyed, hsmooth⟩ :=
    (Tick.toLaunches_surveyed files now time hquiet).result hfirst hsmoothly m rfl
  obtain ⟨hremoved, hread⟩ := hsmooth (fun _ _ h => h)
  rw [← hplanned.begun, hplanner] at hsurveyed hread
  rw [hplan] at hremoved
  refine ⟨s₁, ?_, ?_, ?_⟩
  · intro filter hfilter hcluster id
    rw [hsurveyed.mem_listNodes_iff hread hfilter hcluster, hremoved, hnodes]
    constructor
    · rintro ⟨n, hn, rfl, hkept, htags⟩
      exact ⟨n, mem_remaining_iff.mpr ⟨hn, hkept⟩, rfl, htags⟩
    · rintro ⟨n, hn, rfl, htags⟩
      obtain ⟨hmem, hkept⟩ := mem_remaining_iff.mp hn
      exact ⟨n, hmem, rfl, hkept, htags⟩
  · intro n hn
    exact hsurveyed.satisfies_ofCluster (hnodes ▸ (mem_remaining_iff.mp hn).1)
  · -- from the launches on, all orders are started, and when the tick ends all have ended
    intro R f T c hR hf htags
    have hnothing := (ordersOf_planned (Tick.toLaunches_launching files now time before) hnone
      hfirst.begins hto).1
    have hordered : ordersOf rest = p.orders := by
      have hwhole : p.orders = ordersOf (first ++ rest) := by
        rw [← hsplit]
        rfl
      unfold ordersOf at hwhole hnothing ⊢
      rw [hwhole, List.filterMap_append, List.prefix_nil.mp hnothing, List.nil_append]
    have hended := (Tick.fromLaunches_launching now time m l).result hrest
      (hsurveyed.launches ▸ Service.follows_launching _ false hfrom [])
    have hstart : Accounts R f T c (s₁.provider.holds f) s₁ :=
      .of_no_launches hR hsurveyed.sound hsurveyed.launches
    have hend := hstart.launching hR hf hsurveyed.launches
      (Tick.fromLaunches_launching now time m l)
      (fun o ho => ⟨ControlLoop.batch_pos_of_mem_ordersFor ho, htags o (horders ▸ ho)⟩)
      (fun h => nomatch h) (.inl fun x hx => hall x (List.mem_append_right _ hx)) hrest.begins hfrom
    rw [hordered] at hend
    exact hend.holds_of_no_launches (List.eq_nil_of_length_eq_zero hended.2)

namespace Launched

variable {s₁ s' : Service}

/-- The remaining nodes of a type are its live ones when the tick comes to its launches. -/
theorem length_remaining (h : p.Launched s₁ s') (nodeType : String) :
    (s₁.provider.listNodes (.ofType p.planner.config.clusterName nodeType)).length =
      p.plan.remaining.countP (·.nodeType? = some nodeType) := by
  have hnodup : ((p.plan.remaining.filter (·.nodeType? = some nodeType)).map (·.id)).Nodup := by
    rw [← survivors_eq_remaining]
    exact ((List.filter_sublist.trans List.filter_sublist).map _).nodup p.nodup
  have hlength : p.plan.remaining.countP (·.nodeType? = some nodeType) =
      ((p.plan.remaining.filter (·.nodeType? = some nodeType)).map (·.id)).length := by
    rw [List.length_map, List.countP_eq_length_filter]
  rw [hlength]
  refine ((List.perm_ext_iff_of_nodup nodup_nodesWhere hnodup).mpr fun id => ?_).length_eq
  refine (h.remaining (Tags.lasting_ofType _ nodeType)
    (fun tags htags => (Tags.satisfies_ofType_iff.mp htags).1) id).trans ?_
  simp only [List.mem_map, List.mem_filter, decide_eq_true_eq]
  constructor
  · rintro ⟨n, hn, rfl, htags⟩
    exact ⟨n, ⟨hn, (Tags.satisfies_ofType_iff.mp htags).2⟩, rfl⟩
  · rintro ⟨n, ⟨hn, htype⟩, rfl⟩
    exact ⟨n, hn, rfl, Tags.satisfies_ofType_iff.mpr ⟨h.cluster n hn, htype⟩⟩

/-- No node is astray when the tick comes to its launches. -/
theorem holds_stray (h : p.Launched s₁ s') (hashed : p.planner.Hashed) :
    s₁.provider.holds (stray p.planner) = 0 := by
  suffices hnone : ∀ id x, s₁.provider.nodes.get? id = some x → stray p.planner id x = true →
      id ∈ ([] : List NodeId) from Nat.le_zero.mp (holds_le_length hnone)
  intro id x hx hstray
  simp only [stray, listed, Bool.and_eq_true, bne_iff_ne, Bool.not_eq_true',
    Bool.or_eq_false_iff] at hstray
  obtain ⟨⟨hlive, hcluster⟩, hunconfigured, hidle⟩ := hstray
  obtain ⟨n, hn, rfl, -⟩ := (h.remaining (Tags.lasting_ofCluster _) (fun _ htags => htags) id).mp
    (InMemory.mem_listNodes_iff.mpr ⟨x, hx, hlive, hcluster⟩)
  have hhealthy := forcedReason_of_mem_survivors (survivors_eq_remaining (p := p) ▸ hn)
  rcases ControlLoop.forcedReason_eq_none_iff.mp hhealthy with hupdating | ⟨hashes, hfound, -⟩
  · rw [hidle] at hupdating
    cases hupdating
  · obtain ⟨nodeType, htype, hget⟩ := Option.bind_eq_some_iff.mp hfound
    have hconfigured : p.planner.config.nodeTypes.contains nodeType = true := by
      rw [Table.contains, ← hashed nodeType, hget]
      rfl
    have hsame : n.id ∈ s₁.provider.listNodes (.ofType p.planner.config.clusterName nodeType) :=
      (h.remaining (Tags.lasting_ofType _ nodeType)
        (fun tags htags => (Tags.satisfies_ofType_iff.mp htags).1) n.id).mpr
          ⟨n, hn, rfl, Tags.satisfies_ofType_iff.mpr ⟨h.cluster n hn, htype⟩⟩
    obtain ⟨y, hy, -, htags⟩ := InMemory.mem_listNodes_iff.mp hsame
    obtain rfl := Option.some.inj (hy.symm.trans hx)
    rw [(Tags.satisfies_ofType_iff.mp htags).2, Option.any_some, hconfigured] at hunconfigured
    cases hunconfigured

/-- What stays without a configured type has an updater in flight. -/
theorem isUpdating (h : p.Launched s₁ s') (hashed : p.planner.Hashed)
    (hordered : ∀ o ∈ p.orders, ofConfiguredType p.planner o.tags) {id : NodeId}
    (hid : id ∈ s'.provider.listNodes (.ofCluster p.planner.config.clusterName))
    (hunconfigured : ∀ nodeType limits, p.planner.config.limits.get? nodeType = some limits →
      id ∉ s'.provider.listNodes (.ofType p.planner.config.clusterName nodeType)) :
    p.planner.isUpdating id = true := by
  have hnone := h.ordered comparison_le (measured_stray p.planner) hordered
  have hnothing : owed (fun _ => false) (p.orders.map LaunchOrder.debt) = 0 := by
    refine List.sum_eq_zero fun k hk => ?_
    obtain ⟨d, -, rfl⟩ := List.mem_map.mp hk
    rfl
  rw [h.holds_stray hashed, hnothing] at hnone
  cases hupdating : p.planner.isUpdating id with
  | true => rfl
  | false =>
    obtain ⟨x, hx, hlive, hcluster⟩ := InMemory.mem_listNodes_iff.mp hid
    have hstray : id ∈ s'.provider.nodesWhere (stray p.planner) := by
      refine mem_nodesWhere_iff.mpr ⟨x, hx, ?_⟩
      simp only [stray, listed, Bool.and_eq_true, bne_iff_ne, Bool.not_eq_true',
        Bool.or_eq_false_iff]
      refine ⟨⟨hlive, hcluster⟩, ?_, hupdating⟩
      cases htype : x.tags.get? Tags.nodeType with
      | none => rfl
      | some nodeType =>
        rw [Option.any_some]
        cases hcontains : p.planner.config.nodeTypes.contains nodeType with
        | false => rfl
        | true =>
          obtain ⟨limits, hlimits⟩ := ClusterConfig.mem_keys_iff_limits.mp
            (Table.contains_eq_true_iff.mp hcontains)
          exact absurd (InMemory.mem_listNodes_iff.mpr ⟨x, hx, hlive,
            Tags.satisfies_ofType_iff.mpr ⟨hcluster, htype⟩⟩) (hunconfigured nodeType limits hlimits)
    exact absurd (List.length_pos_of_mem hstray) (Nat.not_lt.mpr hnone)

end Launched

/-- After a tick that meets no failure and puts no launch off, each configured type has as many live
nodes as its target, or as had an updater in flight when the tick planned if those are more; and
whatever else is live in the cluster had an updater in flight then, and still has. -/
theorem targets_reached (hsucceeds : p.Succeeds) (huntripped : p.planner.breaker.tripped = false)
    (hdeficits : ((p.planner.lacking p.plan.remaining p.plan.targets).map (·.2)).sum ≤
      p.planner.config.tunables.maxConcurrentLaunches -
        p.plan.remaining.countP (fun n => !n.running))
    (hashed : before.Hashed) {source : FileStore}
    (hvalid : p.planner.config.validate source = .ok ()) {s s' : Service} (hsound : s.Sound)
    (hnone : s.launches = [])
    (hfollows : Follows (Service.protocol tending) s
      (before.firstExchange files time :: (p.trace ++ p.rest)) s') :
    (∀ nodeType limits, p.planner.config.limits.get? nodeType = some limits →
      (s'.provider.listNodes (.ofType p.planner.config.clusterName nodeType)).length =
        max (countOf p.plan.targets nodeType)
          (p.nodes.countP (fun n => n.nodeType? = some nodeType ∧ p.planner.isUpdating n.id))) ∧
    (∀ id ∈ s'.provider.listNodes (.ofCluster p.planner.config.clusterName),
      (∀ nodeType limits, p.planner.config.limits.get? nodeType = some limits →
        id ∉ s'.provider.listNodes (.ofType p.planner.config.clusterName nodeType)) →
      p.planner.isUpdating id = true ∧ p.after.isUpdating id = true) := by
  have hp : p.Unhindered :=
    ⟨hsucceeds, huntripped, ControlLoop.undeferred_of_sum_le hdeficits, hashed, source, hvalid⟩
  obtain ⟨hkeeps, horders⟩ := hsucceeds.carried huntripped
  obtain ⟨s₁, hlaunched⟩ := hsucceeds.exists_launched huntripped hsound hnone hfollows
  refine ⟨?_, ?_⟩
  · intro nodeType limits hlimits
    have hcount := hlaunched.ordered comparison_eq
      (measured_listed (Tags.lasting_ofType p.planner.config.clusterName nodeType))
      (fun _ _ => trivial)
    have howed : owed (·.satisfies (.ofType p.planner.config.clusterName nodeType))
        (p.orders.map LaunchOrder.debt) = countOf p.plan.targets nodeType -
          p.plan.remaining.countP (·.nodeType? = some nodeType) := by
      rw [← sum_nodesOf_orders hp hlimits, horders]
      exact p.planner.owed_ordersFor _ nodeType
    rw [holds_listed, holds_listed, hlaunched.length_remaining, howed] at hcount
    rw [hcount, ← max_target_remaining hlimits]
    omega
  · intro id hid hunconfigured
    have hupdating := hlaunched.isUpdating hp.hashed_planner (fun o ho => ?_) hid hunconfigured
    · exact ⟨hupdating, hkeeps.updating id hupdating⟩
    · rw [horders] at ho
      obtain ⟨hashes, hget, -⟩ := ControlLoop.tags_of_mem_ordersFor ho
      unfold ofConfiguredType
      rw [(ControlLoop.satisfies_of_mem_ordersFor ho).2, Option.any_some, Table.contains,
        ← hp.hashed_planner, hget]
      rfl

end Passage

/-- A loop whose one type is to have one node. -/
def ControlLoop.ofOne : ControlLoop := ofHeadType { minWorkers := 1, maxWorkers := 1 }

/-- A service that holds the one node, which does not run yet. -/
def Service.ofOne : Service :=
  { provider := ({} : InMemory).addNode
      (ControlLoop.ofOne.launchTags "head" ⟨⟨"launch"⟩, ⟨"files"⟩⟩) .pending }

/-- The record of the one node. -/
def NodeRecord.ofOne : NodeRecord :=
  ⟨idOf 1, ControlLoop.ofOne.launchTags "head" ⟨⟨"launch"⟩, ⟨"files"⟩⟩, false⟩

namespace Passage

/-- A tick that finds the one node it wants reaches its target with that node. -/
theorem targets_reached_ofOne :
    ∃ (p : Passage .empty 0 ⟨0⟩ .ofOne) (s' : Service),
      p.Succeeds ∧ p.planner.breaker.tripped = false ∧ ControlLoop.ofOne.Hashed ∧
        p.planner.config.validate .empty = .ok () ∧ Service.ofOne.Sound ∧
          Follows (Service.protocol tending) .ofOne
            (ControlLoop.ofOne.firstExchange .empty ⟨0⟩ :: (p.trace ++ p.rest)) s' ∧
              (s'.provider.listNodes (.ofType "c" "head")).length =
                max (countOf p.plan.targets "head") (p.nodes.countP (fun n =>
                  n.nodeType? = some "head" ∧ p.planner.isUpdating n.id)) ∧
                countOf p.plan.targets "head" = 1 := by
  let begun := (ControlLoop.ofOne.begun .empty 0 ⟨0⟩).2
  let look : (r : Request) → r.Reply → TickExchange := fun r a => ⟨⟨begun, .request r⟩, ⟨a, []⟩⟩
  let looks : List TickExchange := [look (.listNodes (.ofCluster "c")) (.ok [idOf 1]),
    look (.nodeTags (idOf 1)) (.ok NodeRecord.ofOne.tags), look (.isRunning (idOf 1)) (.ok false)]
  have hlist := runs_retrying (runs_request (.listNodes (.ofCluster "c")) (.ok [idOf 1]) begun)
  have htags := runs_retrying (runs_request (.nodeTags (idOf 1)) (.ok NodeRecord.ofOne.tags) begun)
  have hrunning := runs_retrying (runs_request (.isRunning (idOf 1)) (.ok false) begun)
  have hread : Runs (Tick.reconcile.run begun) looks (.ok [NodeRecord.ofOne], begun) :=
    runs_bind_iff.mpr ⟨[], _, looks, rfl, .done _, runs_bind_iff.mpr ⟨_, _, _, rfl, hlist,
      runs_bind_iff.mpr ⟨_, _, _, rfl, runs_bind_iff.mpr ⟨_, _, _, rfl, htags,
        runs_bind_iff.mpr ⟨_, _, _, rfl, hrunning, .done _⟩⟩, .done _⟩⟩⟩
  -- nothing has to be terminated, launched or updated, so nothing more is asked
  obtain ⟨rest, ⟨summary, after⟩, hpasses, rfl⟩ : ∃ rest r,
      Runs ((Tick.afterReconcile 0 ⟨0⟩ [NodeRecord.ofOne]
        (ControlLoop.ofOne.begun .empty 0 ⟨0⟩).1).run begun) rest r ∧ rest = [] :=
    ⟨_, _, (runs_replay (fun a : TickAsk => a.question.succeed) _).1,
      List.eq_nil_of_length_eq_zero (by decide +kernel)⟩
  let p : Passage .empty 0 ⟨0⟩ .ofOne := ⟨⟨_, _, looks, hread⟩, summary, after, [], hpasses⟩
  have hsucceeds : p.Succeeds := by
    rintro x (_ | ⟨_, _ | ⟨_, _ | ⟨_, hx⟩⟩⟩)
    · rfl
    · rfl
    · rfl
    · cases hx
  have hempty : ({} : InMemory).Numbered := by
    intro id n hn
    have hnone : none = some n := hn
    cases hnone
  have hsound : Service.ofOne.Sound :=
    ⟨hempty.addNode _ _, fun x hx => absurd hx List.not_mem_nil,
      fun x hx => absurd hx List.not_mem_nil⟩
  have hfirst : (Question.abandon
      ((ControlLoop.ofOne.beginTick .empty).updaters.overdue ⟨0⟩)).ServedBy tending ()
        Service.ofOne .ofOne := rfl
  have hlook : ∀ (r : Request) a, World.answer ⟨.inMemory Service.ofOne.provider, .empty, {}⟩ r =
      (a, ⟨.inMemory Service.ofOne.provider, .empty, {}⟩) →
        (Question.request r).ServedBy tending ⟨a, []⟩ Service.ofOne .ofOne :=
    fun r a h => ⟨.ofOne, _, .refl, .answers .empty {} _ h rfl, rfl, rfl⟩
  have hfollows : Follows (Service.protocol tending) .ofOne
      (ControlLoop.ofOne.firstExchange .empty ⟨0⟩ :: (p.trace ++ p.rest)) .ofOne :=
    .cons hfirst (.cons (hlook (.listNodes (.ofCluster "c")) _ rfl)
      (.cons (hlook (.nodeTags (idOf 1)) _ rfl) (.cons (hlook (.isRunning (idOf 1)) _ rfl) (.nil _))))
  have hwanted : countOf p.plan.targets "head" = 1 := by
    change countOf ((begun.takeIn [NodeRecord.ofOne] 0).planTick 0 [NodeRecord.ofOne]).targets
      "head" = 1
    decide +kernel
  have hdeficits : ((p.planner.lacking p.plan.remaining p.plan.targets).map (·.2)).sum ≤
      p.planner.config.tunables.maxConcurrentLaunches -
        p.plan.remaining.countP (fun n => !n.running) := by
    change (((begun.takeIn [NodeRecord.ofOne] 0).lacking
      ((begun.takeIn [NodeRecord.ofOne] 0).planTick 0 [NodeRecord.ofOne]).remaining
      ((begun.takeIn [NodeRecord.ofOne] 0).planTick 0 [NodeRecord.ofOne]).targets).map (·.2)).sum ≤
        (begun.takeIn [NodeRecord.ofOne] 0).config.tunables.maxConcurrentLaunches -
          ((begun.takeIn [NodeRecord.ofOne] 0).planTick 0
            [NodeRecord.ofOne]).remaining.countP (fun n => !n.running)
    decide +kernel
  have hhashed : ControlLoop.ofOne.Hashed := ControlLoop.hashed_ofHeadType _
  have hconfig : p.planner.config = ControlLoop.ofOne.config := rfl
  have huntripped : p.planner.breaker.tripped = false := rfl
  have hvalid : p.planner.config.validate .empty = .ok () := by
    rw [hconfig]
    rfl
  have hreached := targets_reached hsucceeds huntripped hdeficits hhashed hvalid hsound rfl hfollows
  exact ⟨p, .ofOne, hsucceeds, huntripped, hhashed, hvalid, hsound, hfollows,
    hreached.1 "head" ⟨1, 1, ∅⟩ (hconfig ▸ rfl), hwanted⟩

end Passage

end ClusterScaler
