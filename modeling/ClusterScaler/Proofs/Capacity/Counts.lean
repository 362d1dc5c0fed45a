import ClusterScaler.Proofs.Planning.Survivors
import ClusterScaler.Proofs.Service.Survey
import ClusterScaler.Proofs.Tick.Launching

/-!
# Counting nodes through the launches of a tick

Two counts matter for the limits of a cluster: the live nodes of a type, and the nodes of the
cluster that do not run yet. From its launches on, a tick raises them by no more than what its
orders stand for, and the first by exactly that if no call fails.
-/

set_option autoImplicit false

namespace ClusterScaler

open Program InMemory

/-- Live nodes with some tags. -/
def listed (filter : Tags) : NodeId → Node → Bool :=
  fun _ n => n.phase != .terminated && n.tags.satisfies filter

/-- Nodes with some tags that do not run yet. -/
def waiting (filter : Tags) : NodeId → Node → Bool :=
  fun _ n => n.phase == .pending && n.tags.satisfies filter

variable {R : Nat → Nat → Prop} {f : NodeId → Node → Bool} {T : Tags → Prop} {c : Tags → Bool}
  {filter : Tags}

theorem holds_listed (p : InMemory) (filter : Tags) :
    p.holds (listed filter) = (p.listNodes filter).length := rfl

theorem measured_listed (hfilter : filter.Lasting) :
    Measured Eq (listed filter) (fun _ => True) (·.satisfies filter) := by
  refine ⟨fun htended => ?_, fun tags phase _ hphase => ⟨_, fun _ _ => ?_, fun n => rfl⟩⟩
  · refine ((List.perm_ext_iff_of_nodup nodup_nodesWhere nodup_nodesWhere).mpr ?_).length_eq
    exact fun id => htended.mem_listNodes_iff hfilter
  · simp [listed, hphase]

theorem Measured.le (h : Measured Eq f T c) : Measured LE.le f T c := by
  refine ⟨fun htended => Nat.le_of_eq (h.tended htended), fun tags phase htags hphase => ?_⟩
  obtain ⟨new, hnew, hcounts⟩ := h.made tags phase htags hphase
  exact ⟨new, hnew, fun n => Nat.le_of_eq (hcounts n)⟩

theorem waiting_of_becomes (hfilter : filter.Lasting) (id : NodeId) (n n' : Node)
    (hbecomes : n.Becomes n') (h : waiting filter id n' = true) : waiting filter id n = true := by
  simp only [waiting, Bool.and_eq_true, beq_iff_eq] at h ⊢
  exact ⟨hbecomes.waits h.1, hfilter.satisfies_congr hbecomes.tags ▸ h.2⟩

theorem listed_of_becomes (hfilter : filter.Lasting) (id : NodeId) (n n' : Node)
    (hbecomes : n.Becomes n') (h : listed filter id n' = true) : listed filter id n = true := by
  simp only [listed, Bool.and_eq_true, bne_iff_ne] at h ⊢
  exact ⟨fun hphase => h.1 (hbecomes.terminated hphase),
    hfilter.satisfies_congr hbecomes.tags ▸ h.2⟩

theorem measured_waiting (hfilter : filter.Lasting) :
    Measured LE.le (waiting filter) (fun _ => True) (·.satisfies filter) := by
  refine ⟨fun {p p'} htended => ?_, fun tags phase _ _ =>
    ⟨phase == .pending && tags.satisfies filter, fun _ _ => rfl, fun n => ?_⟩⟩
  · apply holds_le_holds
    intro id n' hn' hwaits
    obtain ⟨n, hn, -⟩ := htended.same id n' hn'
    obtain ⟨m, hm, hbecomes⟩ := htended.onward id n hn
    obtain rfl := Option.some.inj (hm.symm.trans hn')
    exact ⟨n, hn, waiting_of_becomes hfilter id n m hbecomes hwaits⟩
  · by_cases htags : tags.satisfies filter = true
    · simp only [htags, Bool.and_true, if_true]
      split
      · exact Nat.le_refl n
      · exact Nat.zero_le n
    · simp [htags]

theorem live_of_listed (id : NodeId) (n : Node) (h : listed filter id n = true) :
    n.phase ≠ .terminated := by
  simp only [listed, Bool.and_eq_true, bne_iff_ne] at h
  exact h.1

theorem live_of_waiting (id : NodeId) (n : Node) (h : waiting filter id n = true) :
    n.phase ≠ .terminated := by
  simp only [waiting, Bool.and_eq_true, beq_iff_eq] at h
  rw [h.1]
  decide

/-- Terminated nodes leave a count of live ones. -/
theorem shrinks_of_live (hlive : ∀ id n, f id n = true → n.phase ≠ .terminated) :
    Accounts.Shrinks LE.le f := by
  intro ids p
  apply holds_le_holds
  intro id n' hn' hf
  rw [get?_foldl_terminateLive] at hn'
  split at hn'
  · obtain ⟨n, -, rfl⟩ := Option.map_eq_some_iff.mp hn'
    exact absurd rfl (hlive id _ hf)
  · exact ⟨n', hn', hf⟩

theorem shrinks_listed (filter : Tags) : Accounts.Shrinks LE.le (listed filter) :=
  shrinks_of_live live_of_listed

theorem shrinks_waiting (filter : Tags) : Accounts.Shrinks LE.le (waiting filter) :=
  shrinks_of_live live_of_waiting

namespace Service

variable {outside : InMemory → InMemory → Prop} {s s' : Service}

theorem length_launches_step (h : Step outside s s') : s'.launches.length = s.launches.length := by
  cases h with
  | launch hperm => exact hperm.length_eq.symm
  | update => rw [(provider_goOn _ _ _ _).2]
  | timeout => rw [(provider_goOn _ _ _ _).2]
  | outside => rfl
  | panic => rfl

theorem length_launches_steps (h : Steps outside s s') :
    s'.launches.length = s.launches.length := by
  induction h with
  | refl => rfl
  | tail _ hstep ih => exact (length_launches_step hstep).trans ih

/-- The launch orders under way in a service are those that its tick has not waited for. -/
theorem next_of_servedBy {q : Question} {reply : q.Reply} (h : q.ServedBy outside reply s s')
    (started : List LaunchOrder) :
    (⟨started, s.launches.length⟩ : Launching).next q =
      ⟨started ++ q.order?.toList, s'.launches.length⟩ := by
  cases q with
  | request r =>
    obtain ⟨m, p, hsteps, -, -, rfl⟩ := h
    exact congrArg₂ Launching.mk (List.append_nil started).symm (length_launches_steps hsteps).symm
  | dispatch u =>
    obtain rfl := h
    exact congrArg₂ Launching.mk (List.append_nil started).symm rfl
  | abandon nodes =>
    obtain rfl := h
    exact congrArg₂ Launching.mk (List.append_nil started).symm rfl
  | launch o =>
    obtain rfl := h
    rfl
  | awaitLaunch =>
    obtain ⟨m, rest, others, hsteps, hperm, -, -, rfl⟩ := h
    refine congrArg₂ Launching.mk (List.append_nil started).symm ?_
    have hlength := hperm.length_eq
    rw [List.length_cons, length_launches_steps hsteps] at hlength
    change s.launches.length - 1 = others.length
    omega

theorem follows_launching (planned : List LaunchOrder) (terminating : Bool)
    {trace : List TickExchange} (h : Follows (Service.protocol outside) s trace s')
    (started : List LaunchOrder) :
    Follows (launching planned terminating) ⟨started, s.launches.length⟩ trace
      ⟨started ++ ordersOf trace, s'.launches.length⟩ := by
  induction h generalizing started with
  | nil s =>
    have hnone : started ++ ordersOf [] = started := List.append_nil started
    rw [hnone]
    exact .nil _
  | @cons s s₁ s₂ x rest hstep _ ih =>
    have hsplit : started ++ ordersOf (x :: rest) =
        started ++ x.op.question.order?.toList ++ ordersOf rest := by
      unfold ordersOf
      rw [List.filterMap_cons, List.append_assoc]
      cases x.op.question.order? <;> rfl
    rw [hsplit]
    exact .cons (next_of_servedBy hstep started).symm (ih _)

end Service

/-- A tick that comes to its end has waited for all of its launch orders. -/
theorem Tick.launches_over {outside : InMemory → InMemory → Prop} {files : FileStore} {now : Nat}
    {time : Duration} {before : ControlLoop} {trace : List TickExchange}
    {result : Except LoopError TickSummary × ControlLoop} {v v' : Service}
    (hruns : Runs ((tick files now time).run before) trace result)
    (hfollows : Follows (Service.protocol outside) v trace v') (hnone : v.launches = []) :
    v'.launches = [] := by
  have hover : ∀ {α : Type} {planned : List LaunchOrder} {terminating : Bool}
      {p : TickM α} {l : ControlLoop} {trace : List TickExchange} {r : α × ControlLoop}
      {v v' : Service},
      p.Meets (launching planned terminating) (fun _ l' s' => StartedOf planned 0 l' s') l {} →
        Runs (p.run l) trace r → Follows (Service.protocol outside) v trace v' →
          v.launches = [] → v'.launches = [] := by
    intro α planned terminating p l trace r v v' hmeets hruns hfollows hnone
    have hlaunching := Service.follows_launching planned terminating hfollows []
    rw [hnone] at hlaunching
    exact List.length_eq_zero_iff.mp (hmeets.result hruns hlaunching).2
  rw [toLaunches_pass] at hruns
  obtain ⟨first, ⟨reached, l⟩, rest, rfl, hfirst, hrest⟩ := runs_bind_iff.mp hruns
  obtain ⟨m, hto, hfrom⟩ := follows_append.mp hfollows
  have hmidway := hover (toLaunches_launching files now time before) hfirst hto hnone
  cases reached with
  | error e =>
    cases hrest
    cases hfrom
    exact hmidway
  | ok reached =>
    obtain ⟨passed, r, done, rfl, hpassed, hdone⟩ := runs_bind_iff.mp
      (show Runs (((fromLaunches now time reached).run l).bind fun r =>
        .done (Except.ok (ε := LoopError) r.1, r.2)) rest result from hrest)
    cases hdone
    rw [List.append_nil] at hfrom
    exact hover (fromLaunches_launching now time reached l) hpassed hfrom hmidway

/-- A question that a tick may ask on its way through its launches does not disturb a count, as far as
the comparison allows for terminations and for orders that do not end well. -/
theorem undisturbing_of_launching {planned : List LaunchOrder} {terminating : Bool}
    {st : Launching} {x : TickExchange}
    (hpermits : (launching planned terminating).permits st x.op)
    (hplanned : ∀ o ∈ planned, 0 < o.batch ∧ T o.tags)
    (hshrinks : terminating = true → Accounts.Shrinks R f)
    (hends : Succeeded x ∨ ∀ m n, R m (n + m)) :
    Accounts.Undisturbing R f T x.op.question x.reply := by
  obtain ⟨⟨l, q⟩, reply⟩ := x
  cases q with
  | request r =>
    have hr := hpermits.1 r rfl
    cases r with
    | setNodeTags node tags => rcases hr with hr | ⟨-, hr⟩ <;> cases hr
    | createNodes template tags count => rcases hr with hr | ⟨-, hr⟩ <;> cases hr
    | terminateNode node => exact ⟨trivial, rfl, fun _ => hshrinks (hr.resolve_left (fun h => nomatch h)).1⟩
    | terminateNodes nodes =>
      exact ⟨trivial, rfl, fun _ => hshrinks (hr.resolve_left (fun h => nomatch h)).1⟩
    | _ => exact ⟨trivial, rfl, fun h => nomatch h⟩
  | launch o =>
    exact hplanned o (hpermits.2.subset (List.mem_append_right _ (List.mem_singleton.mpr rfl)))
  | awaitLaunch => exact hends
  | dispatch u => trivial
  | abandon nodes => trivial

/-- A part of a tick starts orders as they are planned and asks what it may ask on its way. -/
theorem ordersOf_planned {planned : List LaunchOrder} {terminating : Bool} {α : Type}
    {p left : Program TickAsk TickAsk.Reply α} {accepts : α → Launching → Prop}
    (hmeets : p.Meets (launching planned terminating) accepts {})
    {outside : InMemory → InMemory → Prop} {s s' : Service} {trace : List TickExchange}
    (hnone : s.launches = []) (hbegins : Begins p trace left)
    (hfollows : Follows (Service.protocol outside) s trace s') :
    ordersOf trace <+: planned ∧
      ∀ x ∈ trace, ∃ st, (launching planned terminating).permits st x.op := by
  have hlaunching := Service.follows_launching planned terminating hfollows []
  rw [hnone] at hlaunching
  have hstarts : ∀ (st : Launching) a (r : a.Reply) st', st.started <+: planned →
      (launching planned terminating).permits st a →
        (launching planned terminating).follows st a r st' → st'.started <+: planned := by
    rintro st ⟨l, q⟩ r st' hst hpermits rfl
    cases q with
    | launch o => exact hpermits.2
    | _ => exact hst
  obtain ⟨hstarted, hasked⟩ := hmeets.asked hstarts List.nil_prefix hbegins hlaunching
  refine ⟨hstarted, fun x hx => ?_⟩
  obtain ⟨st, -, hpermits⟩ := hasked x hx
  exact ⟨st, hpermits⟩

/-- Through a part of a tick, a count changes by what is ordered. -/
theorem Accounts.launching (hR : Comparison R) (hf : Measured R f T c) {k : Nat} {s s' : Service}
    (h : Accounts R f T c k s) (hnone : s.launches = []) {planned : List LaunchOrder}
    {terminating : Bool} {α : Type} {p left : Program TickAsk TickAsk.Reply α}
    {accepts : α → Launching → Prop} {trace : List TickExchange}
    (hmeets : p.Meets (ClusterScaler.launching planned terminating) accepts {})
    (hplanned : ∀ o ∈ planned, 0 < o.batch ∧ T o.tags)
    (hshrinks : terminating = true → Shrinks R f)
    (hends : (∀ x ∈ trace, Succeeded x) ∨ ∀ m n, R m (n + m)) (hbegins : Begins p trace left)
    (hfollows : Follows (Service.protocol tending) s trace s') :
    Accounts R f T c (k + owed c ((ordersOf trace).map LaunchOrder.debt)) s' := by
  refine h.follows hR hf (fun x hx => ?_) hfollows
  obtain ⟨st, hpermits⟩ := (ordersOf_planned hmeets hnone hbegins hfollows).2 x hx
  exact undisturbing_of_launching hpermits hplanned hshrinks (hends.imp_left fun hall => hall x hx)

theorem owed_le_owed {orders orders' : List LaunchOrder} (h : orders <+: orders') :
    owed c (orders.map LaunchOrder.debt) ≤ owed c (orders'.map LaunchOrder.debt) := by
  obtain ⟨rest, rfl⟩ := h
  rw [List.map_append, owed_append]
  exact Nat.le_add_right _ _

theorem owed_le_sum_count (c : Tags → Bool) (orders : List LaunchOrder) :
    owed c (orders.map LaunchOrder.debt) ≤ (orders.map (·.count)).sum := by
  induction orders with
  | nil => exact Nat.le_refl _
  | cons o rest ih =>
    rw [List.map_cons, List.map_cons, LaunchOrder.debt, owed_cons, List.sum_cons]
    refine Nat.add_le_add ?_ ih
    split
    · exact Nat.le_refl _
    · exact Nat.zero_le _

namespace ControlLoop

variable {l : ControlLoop} {deficits : List (String × Nat)}

/-- Ordered nodes belong to the cluster and to the type that they are ordered for. -/
theorem satisfies_of_mem_ordersFor {o : LaunchOrder} (h : o ∈ l.ordersFor deficits) :
    o.tags.satisfies (.ofCluster l.config.clusterName) = true ∧
      o.tags.get? Tags.nodeType = some o.template.nodeType := by
  refine ⟨?_, nodeType_of_mem_ordersFor h⟩
  obtain ⟨hashes, -, htags⟩ := tags_of_mem_ordersFor h
  have hlaunch : Tags.clusterName ≠ Tags.launchConfig := by decide
  have hstatus : Tags.clusterName ≠ Tags.nodeStatus := by decide
  have hname : Tags.clusterName ≠ Tags.nodeName := by decide
  have htype : Tags.clusterName ≠ Tags.nodeType := by decide
  rw [Tags.satisfies_ofCluster_iff, htags]
  exact (Table.get?_insert_of_ne hlaunch).trans ((Table.get?_insert_of_ne hstatus).trans
    ((Table.get?_insert_of_ne hname).trans ((Table.get?_insert_of_ne htype).trans
      Table.get?_insert_self)))

/-- The nodes owed of a type are those that the orders for the type stand for. -/
theorem owed_ordersFor (l : ControlLoop) (deficits : List (String × Nat)) (nodeType : String) :
    owed (·.satisfies (.ofType l.config.clusterName nodeType))
        ((l.ordersFor deficits).map LaunchOrder.debt) =
      ((l.ordersFor deficits).map (LaunchOrder.nodesOf nodeType)).sum := by
  unfold owed
  rw [List.map_map]
  congr 1
  apply List.map_congr_left
  intro o ho
  obtain ⟨hcluster, htype⟩ := satisfies_of_mem_ordersFor ho
  have hsame : o.tags.satisfies (.ofType l.config.clusterName nodeType) =
      decide (o.template.nodeType = nodeType) := by
    rw [Bool.eq_iff_iff, Tags.satisfies_ofType_iff, htype, decide_eq_true_eq]
    exact ⟨fun h => Option.some.inj h.2, fun h => ⟨hcluster, congrArg some h⟩⟩
  unfold LaunchOrder.nodesOf LaunchOrder.debt
  simp only [Function.comp_apply, hsame, decide_eq_true_eq]

end ControlLoop

end ClusterScaler
