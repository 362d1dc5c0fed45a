import ClusterScaler.Proofs.Breaker.Timing
import ClusterScaler.Proofs.Launching.Batches
import ClusterScaler.Proofs.Launching.Shares
import Mathlib.Algebra.Order.BigOperators.Group.List
import Mathlib.Logic.Relation

/-!
# Launch tasks side by side

While a tick starts its launch orders and waits for their ends, the tasks that were started go on in
any order, and their calls may take any time and end in any way. No step of this loses a task or a
call: the tasks under way, those that have ended and the orders still to be started are the orders of
the tick, and its summary counts what the ended ones have created. Each step starts a task, answers
one of its calls or merges its end, so that there are only so many. `launches_within_budget` reads off
what holds at every moment: as each type that is granted anything is granted a node, there are no
more tasks than nodes in the budget.
-/

set_option autoImplicit false

namespace ClusterScaler

open Program

/-- A moment of the launches of a tick: what is left of them for the tick to do, the tasks under way,
and those whose ends the tick has merged. -/
structure LaunchMoment where
  rest : Program TickAsk TickAsk.Reply (TickSummary × ControlLoop)
  running : List LaunchTask
  ended : List LaunchTask

namespace LaunchMoment

/-- The moment at which a tick comes to its launches. -/
def start (l : ControlLoop) (granted : List (String × Nat)) (s : TickSummary) : LaunchMoment :=
  ⟨(Tick.launch granted s).run l, [], []⟩

/-- What may happen next. -/
inductive Step : LaunchMoment → LaunchMoment → Prop where
  /-- The tick starts a task. -/
  | launch {m : LaunchMoment} {l : ControlLoop} {o : LaunchOrder}
      {next : Unit → Program TickAsk TickAsk.Reply (TickSummary × ControlLoop)} :
    m.rest = .ask ⟨l, .launch o⟩ next → Step m ⟨next (), .start o :: m.running, m.ended⟩
  /-- A call of a task is answered. -/
  | answer {m : LaunchMoment} {o : LaunchOrder} {calls : List RequestExchange} {r : Request}
      {next : r.Reply → Routine LaunchReport} {others : List LaunchTask} (reply : r.Reply) :
    m.running.Perm (⟨o, calls, .ask r next⟩ :: others) →
      Step m ⟨m.rest, ⟨o, calls ++ [⟨r, reply⟩], next reply⟩ :: others, m.ended⟩
  /-- The tick merges the end of a task, and what updaters have ended meanwhile. -/
  | merge {m : LaunchMoment} {l : ControlLoop}
      {next : Delivered LaunchEnd → Program TickAsk TickAsk.Reply (TickSummary × ControlLoop)}
      {o : LaunchOrder} {calls : List RequestExchange} {report : LaunchReport}
      {others : List LaunchTask} (ends : List (NodeId × UpdaterEnd)) :
    m.rest = .ask ⟨l, .awaitLaunch⟩ next →
      m.running.Perm (⟨o, calls, .done report⟩ :: others) →
        Step m ⟨next ⟨.reported report, ends⟩, others, ⟨o, calls, .done report⟩ :: m.ended⟩

/-- What is left of the launches of a tick that has these orders to start and waits for so many. -/
def left (pending : List LaunchOrder) (n : Nat) (sum : TickSummary) (l : ControlLoop) :
    Program TickAsk TickAsk.Reply (TickSummary × ControlLoop) :=
  (do Tick.startLaunches pending; Tick.awaitLaunches n sum : TickM TickSummary).run l

theorem left_cons (o : LaunchOrder) (pending : List LaunchOrder) (n : Nat) (sum : TickSummary)
    (l : ControlLoop) :
    left (o :: pending) n sum l = .ask ⟨l, .launch o⟩ (fun _ => left pending n sum l) := rfl

theorem left_nil_succ (n : Nat) (sum : TickSummary) (l : ControlLoop) :
    left [] (n + 1) sum l = .ask ⟨l, .awaitLaunch⟩ fun d =>
      left [] n (ControlLoop.takeEnd (sum, l) d).1 (ControlLoop.takeEnd (sum, l) d).2 := rfl

/-- The tasks and the orders still to be started are the orders of the tick, every task is on its
course, and the summary counts the tasks that have ended. -/
inductive Accounted (orders : List LaunchOrder) (s : TickSummary) : LaunchMoment → Prop where
  | intro {pending : List LaunchOrder} {running ended : List LaunchTask} {n : Nat}
      {sum : TickSummary} {l : ControlLoop} :
    n = running.length + pending.length →
      ((running ++ ended).map (·.order) ++ pending).Perm orders →
        (∀ t ∈ running ++ ended, LaunchTask.Course t.order t) →
          (∀ t ∈ ended, t.outstanding? = none) →
            sum.launched = s.launched + (ended.map (·.created)).sum →
              sum.providerFailures = s.providerFailures + ended.countP (·.failed) →
                Accounted orders s ⟨left pending n sum l, running, ended⟩

variable {orders : List LaunchOrder} {s : TickSummary} {m m' : LaunchMoment}

theorem accounted_start (l : ControlLoop) (granted : List (String × Nat)) (s : TickSummary) :
    Accounted (l.ordersFor granted) s (start l granted s) := by
  have hnone : (l.ordersFor granted).length =
      ([] : List LaunchTask).length + (l.ordersFor granted).length := (Nat.zero_add _).symm
  exact .intro hnone (List.Perm.refl _) (fun _ h => absurd h List.not_mem_nil)
    (fun _ h => absurd h List.not_mem_nil) rfl rfl

/-- Whatever happens next, nothing is lost. -/
theorem Accounted.step (hbatch : ∀ o ∈ orders, 0 < o.batch) (h : Accounted orders s m)
    (hstep : Step m m') : Accounted orders s m' := by
  obtain @⟨pending, running, ended, n, sum, l, hn, hperm, hcourse, hended, hlaunched, hfailures⟩ := h
  cases hstep with
  | @launch l' o next hrest =>
    cases pending with
    | nil =>
      cases n with
      | zero => cases hrest
      | succ n => cases hrest
    | cons first rest =>
      rw [left_cons] at hrest
      cases hrest
      have ho : 0 < o.batch :=
        hbatch o (hperm.mem_iff.mp (List.mem_append_right _ List.mem_cons_self))
      refine .intro ?_ (List.perm_middle.symm.trans hperm) ?_ hended hlaunched hfailures
      · simp only [List.length_cons] at hn ⊢
        omega
      · intro t ht
        rcases List.mem_cons.mp ht with rfl | ht
        · exact LaunchTask.course_start ho
        · exact hcourse t ht
  | @answer o calls r next others reply htask =>
    have htasks := htask.append_right ended
    have ht := hcourse _ (htasks.mem_iff.mpr List.mem_cons_self)
    have ho : 0 < o.batch := hbatch o (hperm.mem_iff.mp (List.mem_append_left _
      (List.mem_map.mpr ⟨_, htasks.mem_iff.mpr List.mem_cons_self, rfl⟩)))
    refine .intro (hn.trans ?_) ?_ ?_ hended hlaunched hfailures
    · rw [htask.length_eq]
      rfl
    · exact ((htasks.map (·.order)).append_right pending).symm.trans hperm
    · intro t ht'
      rcases List.mem_cons.mp ht' with rfl | ht'
      · exact ht.answered ho reply
      · exact hcourse t (htasks.mem_iff.mpr (List.mem_cons_of_mem _ ht'))
  | @merge l' next o calls report others ends hrest htask =>
    cases pending with
    | cons first rest => cases hrest
    | nil =>
      cases n with
      | zero => cases hrest
      | succ n =>
        rw [left_nil_succ] at hrest
        cases hrest
        have htasks := (htask.append_right ended).trans List.perm_middle.symm
        have ht := hcourse _ (htasks.mem_iff.mpr (List.mem_append_right _ List.mem_cons_self))
        obtain ⟨hcreated, hfailed⟩ := ht.report
        obtain ⟨hsum, hsum'⟩ :=
          ControlLoop.counts_mergeLaunch sum (l.complete ends) (.reported report)
        refine .intro ?_ ?_ ?_ ?_ ?_ ?_
        · have hlength := htask.length_eq
          simp only [List.length_cons, List.length_nil] at hlength hn ⊢
          omega
        · exact ((htasks.map (·.order)).append_right []).symm.trans hperm
        · exact fun t ht' => hcourse t (htasks.mem_iff.mpr ht')
        · exact List.forall_mem_cons.mpr ⟨rfl, hended⟩
        · refine hsum.trans ?_
          rw [hlaunched, List.map_cons, List.sum_cons, ← hcreated]
          exact (Nat.add_assoc _ _ _).trans (congrArg _ (Nat.add_comm _ _))
        · refine hsum'.trans ?_
          rw [hfailures, List.countP_cons, ← hfailed, Nat.add_assoc]
          rfl

/-- At every moment of the launches, nothing is lost. -/
theorem accounted_of_steps (l : ControlLoop) (granted : List (String × Nat)) (s : TickSummary)
    (h : Relation.ReflTransGen Step (start l granted s) m) :
    Accounted (l.ordersFor granted) s m := by
  induction h with
  | refl => exact accounted_start l granted s
  | tail _ hstep ih => exact ih.step (fun o ho => ControlLoop.batch_pos_of_mem_ordersFor ho) hstep

/-- Launches that are not over can go on: there is an order to start, a call that can be answered, or
an end to merge. -/
theorem Accounted.done_or_step (h : Accounted orders s m) :
    (∃ r, m.rest = .done r) ∨ ∃ m', Step m m' := by
  obtain @⟨pending, running, ended, n, sum, l, hn, hperm, hcourse, hended, hlaunched, hfailures⟩ := h
  cases pending with
  | cons o rest => exact .inr ⟨_, .launch rfl⟩
  | nil =>
    cases n with
    | zero => exact .inl ⟨_, rfl⟩
    | succ n =>
      cases running with
      | nil => cases hn
      | cons t others =>
        obtain ⟨o, calls, rest⟩ := t
        have ht : LaunchTask.Course o ⟨o, calls, rest⟩ := hcourse _ List.mem_cons_self
        cases ht with
        | @waiting sizes k fuel =>
          have granted : (Request.createNodes o.template o.tags k).Reply := .ok ()
          exact .inr ⟨_, .answer granted (List.Perm.refl _)⟩
        | refused => exact .inr ⟨_, .merge [] rfl (List.Perm.refl _)⟩
        | complete => exact .inr ⟨_, .merge [] rfl (List.Perm.refl _)⟩

/-- How many steps have led to a moment: every task has been started, its calls were answered, and the
ends of some are merged. -/
def past (m : LaunchMoment) : Nat :=
  ((m.running ++ m.ended).map (·.answered.length + 1)).sum + m.ended.length

theorem Step.past_eq (h : Step m m') : m'.past = m.past + 1 := by
  have hsum : ∀ {running others : List LaunchTask}, running.Perm others →
      ((running ++ m.ended).map (·.answered.length + 1)).sum =
        ((others ++ m.ended).map (·.answered.length + 1)).sum :=
    fun htask => ((htask.append_right m.ended).map _).sum_eq
  cases h with
  | launch =>
    simp only [past, LaunchTask.start, List.cons_append, List.map_cons, List.sum_cons,
      List.length_nil]
    omega
  | answer reply htask =>
    unfold past
    rw [hsum htask]
    simp only [List.cons_append, List.map_cons, List.sum_cons, List.length_append,
      List.length_singleton]
    omega
  | merge ends hrest htask =>
    unfold past
    rw [hsum htask]
    simp only [List.cons_append, List.map_append, List.map_cons, List.sum_append, List.sum_cons,
      List.length_cons]
    omega

/-- Each order is started and its end merged once, and between them it has at most as many calls
answered as it has nodes. -/
theorem Accounted.past_le (h : Accounted orders s m) :
    m.past ≤ (orders.map (·.count + 2)).sum := by
  obtain @⟨pending, running, ended, n, sum, l, -, hperm, hcourse, -, -, -⟩ := h
  have hanswered : ((running ++ ended).map (·.answered.length + 1)).sum ≤
      ((running ++ ended).map (·.order.count + 1)).sum :=
    List.sum_le_sum fun t ht => Nat.succ_le_succ (hcourse t ht).batched.length_answered_le
  have hall : ((running ++ ended).map (·.order.count + 2)).sum ≤ (orders.map (·.count + 2)).sum := by
    have hsum := (hperm.map (·.count + 2)).sum_eq
    simp only [List.map_append, List.sum_append, List.map_map, Function.comp_def] at hsum ⊢
    omega
  have hmerged : ((running ++ ended).map (·.order.count + 2)).sum =
      ((running ++ ended).map (·.order.count + 1)).sum + (running ++ ended).length := by
    simp only [List.sum_map_add, List.map_const', List.sum_replicate, smul_eq_mul, mul_one]
    omega
  rw [List.length_append] at hmerged
  unfold past
  dsimp only
  omega

/-- Launches do not go on for ever. -/
theorem Accounted.acc (hbatch : ∀ o ∈ orders, 0 < o.batch) (h : Accounted orders s m) :
    Acc (fun next now => Step now next) m := by
  induction hleft : (orders.map (·.count + 2)).sum - m.past using Nat.strongRecOn generalizing m with
  | ind steps ih =>
    refine .intro m fun m' hstep => ?_
    have h' := h.step hbatch hstep
    have hpast := hstep.past_eq
    have hbound := h'.past_le
    exact ih _ (by omega) h' rfl

/-- Launches that are over have waited for all their tasks. -/
theorem Accounted.of_done {l' : ControlLoop} {s' : TickSummary} (h : Accounted orders s m)
    (hdone : m.rest = .done (s', l')) : m.running = [] ∧ (m.ended.map (·.order)).Perm orders ∧
      (∀ t ∈ m.ended, t.outstanding? = none) ∧
        s'.launched = s.launched + (m.ended.map (·.created)).sum ∧
          s'.providerFailures = s.providerFailures + m.ended.countP (·.failed) := by
  obtain @⟨pending, running, ended, n, sum, l, hn, hperm, hcourse, hended, hlaunched, hfailures⟩ := h
  cases pending with
  | cons o rest => cases hdone
  | nil =>
    cases n with
    | succ n => cases hdone
    | zero =>
      cases hdone
      cases running with
      | cons t others => cases hn
      | nil =>
        rw [List.append_nil] at hperm
        exact ⟨rfl, hperm, hended, hlaunched, hfailures⟩

end LaunchMoment

/-- The type and the number of nodes that a task is for. -/
def LaunchTask.share (t : LaunchTask) : String × Nat := (t.order.template.nodeType, t.order.count)

/-- What holds at every moment of the launches of a tick: there is at most one task for each share, in
batches, and no more calls are under way than the limit. The tick can go on, but not for ever, until
all its tasks have ended and are counted. -/
structure Launches (l : ControlLoop) (granted : List (String × Nat)) (s : TickSummary)
    (m : LaunchMoment) : Prop where
  outstanding : m.running.countP (·.outstanding?.isSome) ≤ l.config.tunables.maxConcurrentLaunches
  shares : ((m.running ++ m.ended).map (·.share)).Subperm granted
  batched : ∀ t ∈ m.running ++ m.ended, t.Batched (max l.config.tunables.maxLaunchBatch 1)
  goesOn : (∃ r, m.rest = .done r) ∨ ∃ m', m.Step m'
  ends : Acc (fun next now : LaunchMoment => now.Step next) m
  result : ∀ s' l', m.rest = .done (s', l') →
    m.running = [] ∧ (m.ended.map (·.share)).Perm granted ∧ (∀ t ∈ m.ended, t.outstanding? = none) ∧
      s'.launched = s.launched + (m.ended.map (·.created)).sum ∧
        s'.providerFailures = s.providerFailures + m.ended.countP (·.failed)

namespace LaunchMoment

variable {l : ControlLoop} {granted : List (String × Nat)} {s : TickSummary} {m : LaunchMoment}

theorem Accounted.subperm_shares {orders : List LaunchOrder} (h : Accounted orders s m) :
    ((m.running ++ m.ended).map (·.share)).Subperm
      (orders.map (fun o => (o.template.nodeType, o.count))) := by
  obtain ⟨-, hperm, -, -, -, -⟩ := h
  have hmapped := hperm.map (fun o => (o.template.nodeType, o.count))
  rw [List.map_append, List.map_map] at hmapped
  exact (List.sublist_append_left _ _).subperm.trans hmapped.subperm

theorem Accounted.course {orders : List LaunchOrder} (h : Accounted orders s m) :
    ∀ t ∈ m.running ++ m.ended, LaunchTask.Course t.order t ∧ t.order ∈ orders := by
  obtain ⟨-, hperm, hcourse, -, -, -⟩ := h
  exact fun t ht => ⟨hcourse t ht,
    hperm.mem_iff.mp (List.mem_append_left _ (List.mem_map_of_mem ht))⟩

/-- Launches that nothing is lost of stay within what is granted. -/
theorem Accounted.launches (h : Accounted (l.ordersFor granted) s m) (hashed : l.Hashed)
    (hconfigured : ∀ d ∈ granted, d.1 ∈ l.config.nodeTypes.keys) (hpos : ∀ d ∈ granted, 0 < d.2)
    (hwithin : (granted.map (·.2)).sum ≤ l.config.tunables.maxConcurrentLaunches) :
    Launches l granted s m := by
  have hgranted := ControlLoop.map_ordersFor hashed hconfigured
  have hshares := h.subperm_shares
  rw [hgranted] at hshares
  have hends := h.acc fun o ho => ControlLoop.batch_pos_of_mem_ordersFor ho
  refine ⟨?_, hshares, fun t ht => ?_, h.done_or_step, hends, fun s' l' hdone => ?_⟩
  · -- every type that is granted anything is granted a node
    calc m.running.countP (·.outstanding?.isSome)
        ≤ (m.running ++ m.ended).length := by
          rw [List.length_append]
          exact List.countP_le_length.trans (Nat.le_add_right _ _)
      _ = ((m.running ++ m.ended).map (·.share)).length := (List.length_map _).symm
      _ ≤ granted.length := hshares.length_le
      _ = (granted.map (·.2)).length := (List.length_map _).symm
      _ ≤ (granted.map (·.2)).sum :=
          List.length_le_sum_of_one_le _ (List.forall_mem_map.mpr hpos)
      _ ≤ l.config.tunables.maxConcurrentLaunches := hwithin
  · obtain ⟨hcourse, horder⟩ := h.course t ht
    rw [← ControlLoop.batch_of_mem_ordersFor horder]
    exact hcourse.batched
  · obtain ⟨hnone, hperm, hended, hlaunched, hfailures⟩ := h.of_done hdone
    have hmapped := hperm.map (fun o => (o.template.nodeType, o.count))
    rw [List.map_map, hgranted] at hmapped
    exact ⟨hnone, hmapped, hended, hlaunched, hfailures⟩

end LaunchMoment

/-- For any nodes and targets, new nodes are granted to the types in order, the head type first, as
many as each lacks and as long as the budget lasts. However the calls of the tasks end and in
whatever order they are answered, no more calls are under way at any moment than the limit; every type
that is granted nodes is asked for them in batches, up to its first failure; and the tick goes on until
all tasks have ended, when the summary counts the nodes that were created and the types that
failed. -/
theorem launches_within_budget {l : ControlLoop} (hashed : l.Hashed)
    (hhead : l.config.headNodeType ∈ l.config.nodeTypes.keys) (nodes : List NodeRecord)
    (targets : Table String Nat) (s : TickSummary) :
    Shares (l.config.headNodeType :: l.config.nodeTypes.keys.filter (· != l.config.headNodeType))
        (fun nodeType => countOf targets nodeType - nodes.countP (·.nodeType? = some nodeType))
        (l.config.tunables.maxConcurrentLaunches - nodes.countP (fun n => !n.running))
        (l.planLaunches nodes targets) ∧
      ∀ m, Relation.ReflTransGen LaunchMoment.Step (.start l (l.planLaunches nodes targets) s) m →
        Launches l (l.planLaunches nodes targets) s m := by
  have hshares := l.shares_planLaunches nodes targets
  refine ⟨hshares, fun m hm => ?_⟩
  refine (LaunchMoment.accounted_of_steps l _ s hm).launches hashed ?_ hshares.pos ?_
  · intro d hd
    have hmem := hshares.inOrder.subset (List.mem_map_of_mem (f := (·.1)) hd)
    rcases List.mem_cons.mp hmem with heq | hother
    · rw [heq]
      exact hhead
    · exact List.mem_of_mem_filter hother
  · exact hshares.within.trans (Nat.sub_le _ _)

/-- The task of an order for two nodes, one at a time, whose second call has failed. -/
def LaunchTask.halfDone (o : LaunchOrder) (e : ProviderError) : LaunchTask :=
  ⟨o, [o.call (.ok ()) 1, o.call (.error e) 1], .done ⟨o.template.nodeType, 1, some e⟩⟩

theorem LaunchMoment.steps_halfDone {o : LaunchOrder} (hcount : o.count = 2) (hbatch : o.batch = 1)
    (e : ProviderError) (s : TickSummary) (l : ControlLoop) :
    ∃ r, Relation.ReflTransGen Step ⟨left [o] 1 s l, [], []⟩
      ⟨.done r, [], [.halfDone o e]⟩ := by
  have hask : ∀ fuel launched, launched < 2 → o.batches (fuel + 1) launched =
      .ask (.createNodes o.template o.tags 1) (o.afterBatch fuel launched 1) := by
    intro fuel launched hlt
    have hmin : min (2 - launched) o.batch = 1 := by omega
    rw [LaunchOrder.batches_succ, hcount, if_pos hlt, hmin]
  let batch : Request := .createNodes o.template o.tags 1
  let first : LaunchTask := ⟨o, [], .ask batch (o.afterBatch 1 0 1)⟩
  let second : LaunchTask := ⟨o, [o.call (.ok ()) 1], .ask batch (o.afterBatch 0 1 1)⟩
  have hfirst : LaunchTask.start o = first := by
    rw [LaunchTask.start, LaunchOrder.routine, hcount, hask 1 0 (by decide)]
  have hsecond : (⟨o, [] ++ [o.call (.ok ()) 1], o.afterBatch 1 0 1 (.ok ())⟩ : LaunchTask) =
      second := by
    rw [LaunchOrder.afterBatch, hask 0 1 (by decide)]
    rfl
  have hlaunch : Step ⟨left [o] 1 s l, [], []⟩ ⟨left [] 1 s l, [first], []⟩ :=
    hfirst ▸ .launch (m := ⟨left [o] 1 s l, [], []⟩) rfl
  have hgranted : Step ⟨left [] 1 s l, [first], []⟩ ⟨left [] 1 s l, [second], []⟩ :=
    hsecond ▸ .answer (m := ⟨left [] 1 s l, [first], []⟩) (r := batch) (.ok ()) (List.Perm.refl _)
  have hrefused : Step ⟨left [] 1 s l, [second], []⟩ ⟨left [] 1 s l, [.halfDone o e], []⟩ :=
    .answer (m := ⟨left [] 1 s l, [second], []⟩) (r := batch) (.error e) (List.Perm.refl _)
  exact ⟨_, .tail (.tail (.tail (.single hlaunch) hgranted) hrefused)
    (.merge (m := ⟨left [] 1 s l, [.halfDone o e], []⟩) [] rfl (List.Perm.refl _))⟩

/-- A loop that asks for one node at a time. -/
def ControlLoop.oneAtATime : ControlLoop :=
  let l := ofHeadType { maxWorkers := 3 }
  { l with config := { l.config with tunables := { maxLaunchBatch := 1 } } }

/-- Of two nodes that are granted, one is created before a call fails. -/
theorem launches_within_budget_oneAtATime :
    let granted := ControlLoop.oneAtATime.planLaunches [] (.ofList [("head", 2)])
    ControlLoop.oneAtATime.Hashed ∧
      ControlLoop.oneAtATime.config.headNodeType ∈
          ControlLoop.oneAtATime.config.nodeTypes.keys ∧
        granted = [("head", 2)] ∧
          ∃ m s' l', Relation.ReflTransGen LaunchMoment.Step
              (.start .oneAtATime granted (.start 0 0)) m ∧
            m.rest = .done (s', l') ∧ Launches .oneAtATime granted (.start 0 0) m ∧
              m.ended.map (fun t => (t.share, t.created, t.failed)) = [(("head", 2), 1, true)] ∧
                s'.launched = 1 ∧ s'.providerFailures = 1 := by
  intro granted
  have hashed : ControlLoop.oneAtATime.Hashed := ControlLoop.hashed_ofHeadType _
  have hhead : ControlLoop.oneAtATime.config.headNodeType ∈
      ControlLoop.oneAtATime.config.nodeTypes.keys := by decide
  have hgranted : granted = [("head", 2)] := by decide +kernel
  obtain ⟨o, ho⟩ := ControlLoop.exists_launchOrder? hashed hhead 2
  obtain ⟨htype, hcount, hbatch⟩ := ControlLoop.launchOrder?_eq_some ho
  have hstart : LaunchMoment.start .oneAtATime granted (.start 0 0) =
      ⟨LaunchMoment.left [o] 1 (.start 0 0) .oneAtATime, [], []⟩ := by
    have horders : ControlLoop.oneAtATime.ordersFor [("head", 2)] = [o] :=
      List.filterMap_cons_some ho
    rw [hgranted]
    exact congrArg (fun orders : List LaunchOrder => (⟨LaunchMoment.left orders orders.length
      (.start 0 0) .oneAtATime, [], []⟩ : LaunchMoment)) horders
  obtain ⟨⟨s', l'⟩, hsteps⟩ := LaunchMoment.steps_halfDone hcount hbatch (.permanent "down")
    (.start 0 0) .oneAtATime
  rw [← hstart] at hsteps
  have hlaunches := (launches_within_budget hashed hhead [] (.ofList [("head", 2)]) (.start 0 0)).2
    _ hsteps
  obtain ⟨-, -, -, hlaunched, hfailures⟩ := hlaunches.result s' l' rfl
  refine ⟨hashed, hhead, hgranted, _, s', l', hsteps, rfl, hlaunches, ?_, hlaunched, hfailures⟩
  simp only [List.map_cons, List.map_nil, LaunchTask.share, LaunchTask.halfDone, htype, hcount]
  rfl

end ClusterScaler
