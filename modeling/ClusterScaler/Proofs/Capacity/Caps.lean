import ClusterScaler.Proofs.Capacity.Counts
import ClusterScaler.Proofs.Service.Serving

/-!
# The caps of a cluster

A tick launches no more than keeps the nodes of each type within its maximum, and the nodes that do
not run yet within the limit on launches. But it reckons with the nodes that it could read and does
not mean to terminate. A node that could not be read, or whose termination failed, is overlooked,
and by as many nodes a tick may go beyond its caps, whatever fails on the way.
-/

set_option autoImplicit false

namespace ClusterScaler

open Program InMemory

variable {f : NodeId → Node → Bool} {filter : Tags}

/-- What is counted among the nodes though the plan does not reckon with it and it was not
terminated. -/
def Tick.Midway.overlooked (m : Tick.Midway) (p : InMemory) (f : NodeId → Node → Bool) : Nat :=
  p.holds (fun id n =>
    f id n && !((m.plan.remaining.map (·.id)).contains id || m.removed.contains id))

/-- The counts of a cluster have stayed within its caps and what comes on top of them, or within what
they were before. -/
structure WithinCaps (config : ClusterConfig) (onTop : (NodeId → Node → Bool) → Nat)
    (p p' : InMemory) : Prop where
  waiting : p'.holds (waiting (.ofCluster config.clusterName)) ≤
    max (p.holds (waiting (.ofCluster config.clusterName)))
      (config.tunables.maxConcurrentLaunches + onTop (waiting (.ofCluster config.clusterName)))
  types : ∀ nodeType limits, config.limits.get? nodeType = some limits →
    (p'.listNodes (.ofType config.clusterName nodeType)).length ≤
      max (p.listNodes (.ofType config.clusterName nodeType)).length
        (limits.maxWorkers + onTop (listed (.ofType config.clusterName nodeType)))

namespace ControlLoop

variable {l : ControlLoop} {now : Nat} {nodes : List NodeRecord} {nodeType : String}
  {limits : TypeLimits Float}

theorem remaining_subset (l : ControlLoop) (now : Nat) (nodes : List NodeRecord) :
    (l.planTick now nodes).remaining ⊆ nodes := by
  intro n hn
  have hhealthy := List.mem_of_mem_filter hn
  rw [healthy_map_fst] at hhealthy
  exact List.mem_of_mem_filter hhealthy

theorem targets_le_maxWorkers (h : l.config.limits.get? nodeType = some limits) :
    countOf (l.planTick now nodes).targets nodeType ≤ limits.maxWorkers := by
  unfold countOf
  rw [targets_get? h]
  exact Nat.min_le_right _ _

/-- The launches for a type bring its nodes up to its maximum at most, and those that have reached it
are not added to. -/
theorem add_planLaunches_le (l : ControlLoop) (now : Nat) (nodes : List NodeRecord)
    {files : FileStore} (hvalid : l.config.validate files = .ok ())
    (h : l.config.limits.get? nodeType = some limits) (remaining : List NodeRecord) (held : Nat) :
    held + ((l.planLaunches remaining (l.planTick now nodes).targets).map
        (fun d => if d.1 = nodeType then d.2 else 0)).sum ≤
      max held (limits.maxWorkers + (held - remaining.countP (·.nodeType? = some nodeType))) := by
  have hgranted := sum_grant_le_lacking (l.lacking remaining (l.planTick now nodes).targets)
    (l.config.tunables.maxConcurrentLaunches - remaining.countP (fun n => !n.running)) nodeType
  rw [sum_lacking hvalid (ClusterConfig.mem_keys_iff_limits.mpr ⟨limits, h⟩)] at hgranted
  have htarget : countOf (l.planTick now nodes).targets nodeType ≤ limits.maxWorkers :=
    targets_le_maxWorkers h
  unfold planLaunches
  dsimp only
  omega

/-- All launches together bring the nodes that do not run yet up to the limit at most. -/
theorem add_planLaunches_le_limit (l : ControlLoop) (remaining : List NodeRecord)
    (targets : Table String Nat) (held : Nat) :
    held + ((l.planLaunches remaining targets).map (·.2)).sum ≤
      max held (l.config.tunables.maxConcurrentLaunches +
        (held - remaining.countP (fun n => !n.running))) := by
  have hgranted := sum_grant_le (l.lacking remaining targets)
    (l.config.tunables.maxConcurrentLaunches - remaining.countP (fun n => !n.running))
  unfold planLaunches
  dsimp only
  omega

end ControlLoop

namespace Tick.Midway.Surveyed

variable {m : Tick.Midway} {cluster : String} {p : InMemory} {s : Service}

/-- What is counted when a tick comes to its launches is among what its plan reckons with, or was
overlooked. -/
theorem holds_le (h : m.Surveyed cluster p s) (hremaining : m.plan.remaining ⊆ m.nodes)
    (hlive : ∀ id n, f id n = true → n.phase ≠ .terminated)
    (hlasts : ∀ id n n', n.Becomes n' → f id n' = true → f id n = true) {q : NodeRecord → Bool}
    (hrecorded : ∀ n ∈ m.nodes, ∀ x, s.provider.nodes.get? n.id = some x → f n.id x = true →
      q n = true) :
    s.provider.holds f ≤ m.plan.remaining.countP q + m.overlooked p f := by
  have hreckoned : m.plan.remaining.countP q =
      ((m.plan.remaining.filter q).map (·.id)).length := by
    rw [List.length_map, List.countP_eq_length_filter]
  unfold overlooked
  rw [hreckoned, InMemory.holds.eq_def p, ← List.length_append]
  refine holds_le_length fun id x' hx' hf => ?_
  obtain ⟨x, hx, -⟩ := h.spares.same id x' hx'
  obtain ⟨y, hy, hbecomes⟩ := h.spares.onward id x hx
  obtain rfl := Option.some.inj (hy.symm.trans hx')
  by_cases hremains : id ∈ m.plan.remaining.map (·.id)
  · obtain ⟨n, hn, rfl⟩ := List.mem_map.mp hremains
    exact List.mem_append_left _ (List.mem_map.mpr
      ⟨n, List.mem_filter.mpr ⟨hn, hrecorded n (hremaining hn) y hx' hf⟩, rfl⟩)
  · have hkept : id ∉ m.removed := fun hgone => hlive id y hf (h.spares.gone id hgone y hx')
    refine List.mem_append_right _ (mem_nodesWhere_iff.mpr ⟨x, hx, ?_⟩)
    simp [hlasts id x y hbecomes hf, hremains, hkept]

theorem holds_waiting_le (h : m.Surveyed cluster p s) (hremaining : m.plan.remaining ⊆ m.nodes)
    (hfilter : filter.Lasting) :
    s.provider.holds (waiting filter) ≤
      m.plan.remaining.countP (fun n => !n.running) + m.overlooked p (waiting filter) := by
  refine h.holds_le hremaining live_of_waiting (waiting_of_becomes hfilter) fun n hn x hx hwaits => ?_
  -- what was read as running does not wait any longer
  cases hrunning : n.running with
  | false => rfl
  | true =>
    obtain ⟨y, hy, hphase⟩ := (h.read n hn).2.running hrunning
    obtain rfl := Option.some.inj (hy.symm.trans hx)
    simp only [waiting, Bool.and_eq_true, beq_iff_eq] at hwaits
    exact absurd hwaits.1 hphase

theorem holds_listed_le (h : m.Surveyed cluster p s) (hremaining : m.plan.remaining ⊆ m.nodes)
    (name nodeType : String) :
    s.provider.holds (listed (.ofType name nodeType)) ≤
      m.plan.remaining.countP (·.nodeType? = some nodeType) +
        m.overlooked p (listed (.ofType name nodeType)) := by
  have hfilter := Tags.lasting_ofType name nodeType
  refine h.holds_le hremaining live_of_listed (listed_of_becomes hfilter) fun n hn x hx hlisted => ?_
  have hid : n.id ∈ s.provider.listNodes (.ofType name nodeType) :=
    mem_nodesWhere_iff.mpr ⟨x, hx, hlisted⟩
  have htags := (h.of_mem_listNodes hfilter hid).2.2 n hn rfl
  exact decide_eq_true (Tags.satisfies_ofType_iff.mp htags).2

end Tick.Midway.Surveyed

namespace Accounts

variable {c : Tags → Bool} {files : FileStore} {now : Nat} {time : Duration} {s s' : Service}
  {trace : List TickExchange}

/-- Up to its launches, a tick does not raise a count. -/
theorem toLaunches (hf : Measured LE.le f (fun _ => True) c) (hshrinks : Shrinks LE.le f)
    (hsound : s.Sound) (hnone : s.launches = []) {before : ControlLoop}
    {left : Program TickAsk TickAsk.Reply (Except LoopError Tick.Midway × ControlLoop)}
    (hbegins : Begins ((Tick.toLaunches files now time).run before) trace left)
    (hfollows : Follows (Service.protocol tending) s trace s') :
    Accounts LE.le f (fun _ => True) c (s.provider.holds f) s' := by
  have hstarted := (ordersOf_planned (Tick.toLaunches_launching files now time before) hnone hbegins
    hfollows).1
  have hcount := (of_no_launches comparison_le hsound hnone).launching comparison_le hf hnone
    (Tick.toLaunches_launching files now time before) (fun o ho => absurd ho List.not_mem_nil)
    (fun _ => hshrinks) (.inr fun m n => Nat.le_add_left m n) hbegins hfollows
  rw [List.prefix_nil.mp hstarted] at hcount
  exact hcount

/-- From its launches on, a tick raises a count by what it orders at most. -/
theorem fromLaunches (hf : Measured LE.le f (fun _ => True) c) (hsound : s.Sound)
    (hnone : s.launches = []) {m : Tick.Midway} {l : ControlLoop}
    {left : Program TickAsk TickAsk.Reply (TickSummary × ControlLoop)}
    (hbegins : Begins ((Tick.fromLaunches now time m).run l) trace left)
    (hfollows : Follows (Service.protocol tending) s trace s') :
    ∃ k ≤ s.provider.holds f + owed c ((l.ordersFor
        (m.planner.planLaunches m.plan.remaining m.plan.targets)).map LaunchOrder.debt),
      Accounts LE.le f (fun _ => True) c k s' := by
  have hmeets := Tick.fromLaunches_launching now time m l
  refine ⟨_, Nat.add_le_add_left (owed_le_owed (ordersOf_planned hmeets hnone hbegins
    hfollows).1) _, ?_⟩
  exact (of_no_launches comparison_le hsound hnone).launching comparison_le hf hnone hmeets
    (fun o ho => ⟨ControlLoop.batch_pos_of_mem_ordersFor ho, trivial⟩) (fun h => nomatch h)
    (.inr fun m n => Nat.le_add_left m n) hbegins hfollows

end Accounts

variable {files source : FileStore} {now : Nat} {time : Duration} {before : ControlLoop}
  {config : ClusterConfig} {s s' s'' : Service} {trace : List TickExchange}

/-- Whatever fails during a tick, and wherever it stands, it has raised no count before it came to its
launches, and then within the caps and what it overlooked. -/
theorem caps_survive (hconfig : (before.begun files now time).2.config = config)
    (hvalid : config.validate source = .ok ()) (hsound : s.Sound) (hnone : s.launches = [])
    {left : Program TickAsk TickAsk.Reply (Except LoopError TickSummary × ControlLoop)}
    (hbegins : Begins ((tick files now time).run before) trace left)
    (hfollows : Follows (Service.protocol tending) s trace s')
    (hsteps : Service.Steps tending s' s'') :
    WithinCaps config (fun _ => 0) s.provider s''.provider ∨
      ∃ first rest m l, trace = first ++ rest ∧
        Runs ((Tick.toLaunches files now time).run before) first (.ok m, l) ∧
          WithinCaps config (m.overlooked s.provider) s.provider s''.provider := by
  have hcluster := Tags.lasting_ofCluster config.clusterName
  have htype := Tags.lasting_ofType config.clusterName
  rcases Tick.begins_cases hbegins with
    ⟨left', hfirst⟩ | ⟨first, rest, m, l, left', rfl, hfirst, hrest⟩
  · left
    have hkept : ∀ {f : NodeId → Node → Bool} {c : Tags → Bool},
        Measured LE.le f (fun _ => True) c → Accounts.Shrinks LE.le f →
          s''.provider.holds f ≤ s.provider.holds f := fun hf hshrinks =>
      ((Accounts.toLaunches hf hshrinks hsound hnone hfirst hfollows).steps comparison_le hf
        hsteps).holds_le
    exact ⟨Nat.le_trans (hkept (measured_waiting hcluster) (shrinks_waiting _))
        (Nat.le_max_left _ _), fun nodeType _ _ =>
      Nat.le_trans (hkept (measured_listed (htype nodeType)).le (shrinks_listed _))
        (Nat.le_max_left _ _)⟩
  · right
    refine ⟨first, rest, m, l, rfl, hfirst, ?_⟩
    obtain ⟨s₁, hto, hfrom⟩ := follows_append.mp hfollows
    have hplanned := (Tick.toLaunches_planned files now time before).result hfirst
      (follows_unwatched first) m rfl
    have hquiet : Service.Quiet s.provider s := ⟨hsound, hnone, .refl _⟩
    have hattended : Follows (attended fun _ _ => True) s first s₁ :=
      hto.restrict (fun _ _ => trivial)
    obtain ⟨hsurveyed, -⟩ := (Tick.toLaunches_surveyed files now time hquiet).result hfirst
      hattended m rfl
    rw [hconfig] at hsurveyed
    have hplanner : m.planner.config = config := hplanned.begun.trans hconfig
    have hremaining : m.plan.remaining ⊆ m.nodes := by
      rw [hplanned.plan]
      exact m.planner.remaining_subset now m.nodes
    -- a count comes to what it was at the launches and what is ordered from there on
    have hcount : ∀ {f : NodeId → Node → Bool} {c : Tags → Bool},
        Measured LE.le f (fun _ => True) c → Accounts.Shrinks LE.le f →
          s₁.provider.holds f ≤ s.provider.holds f ∧
            s''.provider.holds f ≤ s₁.provider.holds f + owed c ((l.ordersFor
              (m.planner.planLaunches m.plan.remaining m.plan.targets)).map LaunchOrder.debt) := by
      intro f c hf hshrinks
      obtain ⟨k, hk, hend⟩ := Accounts.fromLaunches hf hsurveyed.sound hsurveyed.launches hrest hfrom
      exact ⟨(Accounts.toLaunches hf hshrinks hsound hnone hfirst.begins hto).holds_le,
        Nat.le_trans (hend.steps comparison_le hf hsteps).holds_le hk⟩
    constructor
    · obtain ⟨hbefore, hafter⟩ := hcount (measured_waiting hcluster) (shrinks_waiting _)
      have hknown := hsurveyed.holds_waiting_le hremaining hcluster
      have howed := Nat.le_trans (owed_le_sum_count (·.satisfies (.ofCluster config.clusterName)) _)
        (l.count_ordersFor_le (m.planner.planLaunches m.plan.remaining m.plan.targets))
      have hlimit := m.planner.add_planLaunches_le_limit m.plan.remaining m.plan.targets
        (s₁.provider.holds (waiting (.ofCluster config.clusterName)))
      rw [hplanner] at hlimit
      omega
    · intro nodeType limits hlimits
      obtain ⟨hbefore, hafter⟩ := hcount (measured_listed (htype nodeType)).le (shrinks_listed _)
      have hknown := hsurveyed.holds_listed_le hremaining config.clusterName nodeType
      have howed := l.owed_ordersFor
        (m.planner.planLaunches m.plan.remaining m.plan.targets) nodeType
      have hnodes := l.nodesOf_ordersFor_le
        (m.planner.planLaunches m.plan.remaining m.plan.targets) nodeType
      have hlimit := m.planner.add_planLaunches_le now m.nodes (hplanner.symm ▸ hvalid)
        (hplanner.symm ▸ hlimits) m.plan.remaining
        (s₁.provider.holds (listed (.ofType config.clusterName nodeType)))
      rw [hplanned.config, hplanner] at howed
      rw [← hplanned.plan] at hlimit
      rw [← holds_listed, ← holds_listed]
      omega

/-- A loop that may have one node of its one type, and one launch under way. -/
def ControlLoop.ofOneLaunch : ControlLoop :=
  { ofHeadType { minWorkers := 1, maxWorkers := 1 } with
    config := { (ofHeadType { minWorkers := 1, maxWorkers := 1 }).config with
      tunables := { maxConcurrentLaunches := 1 } } }

/-- A service whose one node waits to run with an outdated launch configuration, and where the next
termination fails. -/
def Service.ofOutdated : Service :=
  { provider := { ({} : InMemory).addNode
      (ControlLoop.ofOneLaunch.launchTags "head" ⟨⟨"outdated"⟩, ⟨"files"⟩⟩) .pending with
        terminateFailures := [.permanent "down"] } }

theorem Service.sound_ofOutdated : Service.ofOutdated.Sound := by
  have hempty : ({} : InMemory).Numbered := by
    intro id n hn
    have hnone : none = some n := hn
    cases hnone
  exact ⟨hempty.addNode _ _, fun x hx => absurd hx List.not_mem_nil,
    fun x hx => absurd hx List.not_mem_nil⟩

/-- The tick of that loop at that service leaves two live nodes that do not run. -/
theorem Service.tick?_ofOutdated :
    (Service.ofOutdated.tick? .empty 0 ⟨0⟩ .ofOneLaunch).map (fun r =>
      (r.2.provider.holds (waiting (.ofCluster "c")),
        (r.2.provider.listNodes (.ofType "c" "head")).length)) = some (2, 2) := by
  decide +kernel

/-- In that tick, the termination of the one node fails, and a node is launched in its place all the
same: both caps are exceeded. -/
theorem caps_exceeded_ofOutdated :
    ∃ trace r s', Runs ((tick .empty 0 ⟨0⟩).run .ofOneLaunch) trace r ∧
      Follows (Service.protocol tending) .ofOutdated trace s' ∧
        max (Service.ofOutdated.provider.holds (waiting (.ofCluster "c")))
            ControlLoop.ofOneLaunch.config.tunables.maxConcurrentLaunches <
          s'.provider.holds (waiting (.ofCluster "c")) ∧
        ∃ limits, ControlLoop.ofOneLaunch.config.limits.get? "head" = some limits ∧
          max (Service.ofOutdated.provider.listNodes (.ofType "c" "head")).length limits.maxWorkers <
            (s'.provider.listNodes (.ofType "c" "head")).length := by
  obtain ⟨⟨r, s'⟩, htick, hcounts⟩ := Option.map_eq_some_iff.mp Service.tick?_ofOutdated
  obtain ⟨trace, hrun, hfollows⟩ := Service.exists_runs_of_tick? htick
  obtain ⟨hwaiting, hlisted⟩ := Prod.mk.inj hcounts
  refine ⟨trace, r, s', hrun, hfollows, ?_, ⟨1, 1, ∅⟩, rfl, ?_⟩
  · rw [hwaiting]
    decide +kernel
  · rw [hlisted]
    decide +kernel

/-- That tick stays within what it overlooked. -/
theorem caps_survive_ofOutdated :
    ∃ trace r s', Runs ((tick .empty 0 ⟨0⟩).run .ofOneLaunch) trace r ∧
      Follows (Service.protocol tending) .ofOutdated trace s' ∧ Service.ofOutdated.Sound ∧
        ControlLoop.ofOneLaunch.config.validate .empty = .ok () ∧
          (WithinCaps ControlLoop.ofOneLaunch.config (fun _ => 0) Service.ofOutdated.provider
              s'.provider ∨
            ∃ first rest m l, trace = first ++ rest ∧
              Runs ((Tick.toLaunches .empty 0 ⟨0⟩).run .ofOneLaunch) first (.ok m, l) ∧
                WithinCaps ControlLoop.ofOneLaunch.config
                  (m.overlooked Service.ofOutdated.provider) Service.ofOutdated.provider
                  s'.provider) := by
  obtain ⟨⟨r, s'⟩, htick, -⟩ := Option.map_eq_some_iff.mp Service.tick?_ofOutdated
  obtain ⟨trace, hrun, hfollows⟩ := Service.exists_runs_of_tick? htick
  have hconfig : (ControlLoop.ofOneLaunch.begun .empty 0 ⟨0⟩).2.config =
      ControlLoop.ofOneLaunch.config := rfl
  have hvalid : ControlLoop.ofOneLaunch.config.validate .empty = .ok () := rfl
  exact ⟨trace, r, s', hrun, hfollows, Service.sound_ofOutdated, hvalid,
    caps_survive hconfig hvalid Service.sound_ofOutdated rfl hrun.begins hfollows .refl⟩

end ClusterScaler
