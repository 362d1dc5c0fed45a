import ClusterScaler.Proofs.Breaker.Orders
import ClusterScaler.Proofs.Planning.Orders
import ClusterScaler.Proofs.Restart.Runs

/-!
# The breaker and the timing of launches

A tick ages the window of the breaker when it begins, so no failure of its own ages it again, and
while launch orders end the breaker is no more than its tally. A launch merges as many ends as it
started orders, in the order in which they come. What it counts of them is the same in any order;
what they make of the breaker is the same exactly if their order is free.
-/

set_option autoImplicit false

namespace ClusterScaler

open Program

namespace Breaker

/-- The window of a breaker has been aged to a tick. -/
structure Aged (b : Breaker) (tick : Nat) : Prop where
  window : 0 < b.windowTicks
  current : b.currentTick = tick
  begun : 0 < tick
  recent : ∀ t ∈ b.failures.head?, tick - b.windowTicks < t

/-- What counts of a breaker while launch orders end. -/
def tally (b : Breaker) : Tally := ⟨b.tripped, b.failures.length⟩

variable {b : Breaker} {tick : Nat}

theorem Aged.advance_eq (h : b.Aged tick) : b.advance tick = b := by
  obtain ⟨hwindow, rfl, hbegun, hrecent⟩ := h
  have hkept : b.failures.dropWhile (· ≤ b.currentTick - b.windowTicks) = b.failures := by
    cases hfailures : b.failures with
    | nil => rfl
    | cons t rest =>
      rw [List.dropWhile_cons_of_neg]
      have ht := hrecent t (by simp [hfailures])
      simpa using ht
  unfold advance
  rw [Nat.max_self]
  dsimp only
  rw [hkept]

theorem aged_advance (hwindow : 0 < b.windowTicks) (hcurrent : b.currentTick ≤ tick)
    (hbegun : 0 < tick) : (b.advance tick).Aged tick := by
  have hmax : max b.currentTick tick = tick := Nat.max_eq_right hcurrent
  refine ⟨hwindow, hmax, hbegun, fun t ht => ?_⟩
  unfold advance at ht ⊢
  dsimp only at ht ⊢
  rw [hmax] at ht
  have hold := List.head?_dropWhile_not (fun t => decide (t ≤ tick - b.windowTicks)) b.failures
  rw [Option.mem_def.mp ht] at hold
  simpa using hold

theorem Aged.recordFailure (h : b.Aged tick) : (b.recordFailure tick).1.Aged tick := by
  unfold Breaker.recordFailure
  rw [h.advance_eq]
  refine ⟨h.window, h.current, h.begun, fun t ht => ?_⟩
  dsimp only at ht ⊢
  cases hfailures : b.failures with
  | nil =>
    have hwindow := h.window
    have hbegun := h.begun
    simp only [hfailures, List.nil_append, List.head?_cons, Option.mem_some_iff] at ht
    omega
  | cons first rest =>
    refine h.recent t ?_
    simpa [hfailures] using ht

theorem Aged.recordSuccess (h : b.Aged tick) : b.recordSuccess.Aged tick := by
  unfold Breaker.recordSuccess
  split
  · exact h
  · exact ⟨h.window, h.current, h.begun, fun t ht => by simp at ht⟩

theorem Aged.tally_recordFailure (h : b.Aged tick) :
    (b.recordFailure tick).1.tally = b.tally.fail b.maxFailures := by
  unfold Breaker.recordFailure
  rw [h.advance_eq]
  cases htripped : b.tripped <;> simp [tally, Tally.fail, htripped]

theorem tally_recordSuccess : b.recordSuccess.tally = b.tally.clear := by
  cases htripped : b.tripped <;> simp [recordSuccess, tally, Tally.clear, htripped]

end Breaker

namespace ControlLoop

variable {l : ControlLoop} {limit : Nat}

/-- All through a tick the breaker stays aged to it, and keeps its limit. -/
theorem standing_aged (limit : Nat) :
    Standing (fun l => l.breaker.Aged l.ticks ∧ l.breaker.maxFailures = limit)
      (fun _ => True) where
  congr h _ _ hticks hbreaker := by
    rw [hticks, hbreaker]
    exact h
  failure h := ⟨h.1.recordFailure, h.2⟩
  success h := ⟨h.1.recordSuccess, (Breaker.recordSuccess_same _).1.trans h.2⟩
  order _ _ := trivial
  update _ _ _ _ := trivial
  looks _ := trivial
  terminate _ := trivial
  abandon _ := trivial
  await := trivial

/-- A tick begins with a breaker that is aged to it, whatever commands wait. -/
theorem Tuned.aged_beginTick (h : l.Tuned) (files : FileStore) :
    (l.beginTick files).breaker.Aged (l.beginTick files).ticks := by
  refine l.beginTick_induct files (motive := fun l' => l'.breaker.Aged l'.ticks) ?_ ?_
  · exact Breaker.aged_advance h.window (Nat.le_succ_of_le h.current) (Nat.succ_pos _)
  · intro l' h' c _
    rcases obey_cases files l' c with heq | ⟨-, heq⟩ | ⟨config, _, -, -, -, heq⟩
    · rw [heq]
      exact h'
    · rw [heq]
      exact ⟨h'.window, h'.current, h'.begun, fun t ht => by cases ht⟩
    · rw [heq]
      have haged : (l'.breaker.setLimits config.tunables.maxFailures
          config.tunables.failureWindowTicks).Aged l'.breaker.currentTick := by
        refine Breaker.aged_advance ?_ (Nat.le_refl _) (h'.current ▸ h'.begun)
        exact Nat.lt_of_lt_of_le Nat.zero_lt_one (Nat.le_max_right _ 1)
      rw [h'.current] at haged
      exact haged

/-- A tick comes to its launches with a breaker that is aged to it. -/
theorem Tuned.aged_toLaunches {before : ControlLoop} (h : before.Tuned) {files : FileStore}
    {now : Nat} {time : Duration} {first : List TickExchange}
    {result : Except LoopError Tick.Midway}
    (hfirst : Runs ((Tick.toLaunches files now time).run before) first (result, l)) :
    l.breaker.Aged l.ticks := by
  have hmeets := (standing_aged (before.beginTick files).breaker.maxFailures).toLaunches files now
    time ⟨h.aged_beginTick files, rfl⟩
  exact (hmeets.result hfirst (follows_asking first)).1

/-- The end of a launch order is merged with what ended meanwhile. -/
def takeEnd (state : TickSummary × ControlLoop) (d : Delivered LaunchEnd) :
    TickSummary × ControlLoop :=
  mergeLaunch (state.1, state.2.complete d.ended) d.answer

/-- What is launched and what fails is counted of every end. -/
theorem counts_mergeLaunch (s : TickSummary) (l : ControlLoop) (e : LaunchEnd) :
    (mergeLaunch (s, l) e).1.launched = s.launched + e.launched ∧
      (mergeLaunch (s, l) e).1.providerFailures =
        s.providerFailures + if e.fails then 1 else 0 := by
  have hlaunched : ∀ n, (countLaunched n (s, l)).1.launched = s.launched + n ∧
      (countLaunched n (s, l)).1.providerFailures = s.providerFailures := by
    intro n
    unfold countLaunched
    dsimp only
    split
    · next hnone =>
      obtain rfl : n = 0 := by simpa using hnone
      exact ⟨rfl, rfl⟩
    · exact ⟨rfl, rfl⟩
  cases e with
  | panicked => exact ⟨rfl, rfl⟩
  | reported r =>
    obtain ⟨hnodes, hfailures⟩ := hlaunched r.launched
    unfold mergeLaunch LaunchEnd.launched LaunchEnd.fails
    dsimp only
    split
    · exact ⟨hnodes, congrArg (· + 1) hfailures⟩
    · exact ⟨hnodes, hfailures⟩

/-- To merge an end is to merge it into the tally. -/
theorem tally_mergeLaunch (h : l.breaker.Aged l.ticks) (s : TickSummary) (e : LaunchEnd) :
    (mergeLaunch (s, l) e).2.breaker.tally = l.breaker.tally.merge l.breaker.maxFailures e := by
  cases e with
  | panicked => exact h.tally_recordFailure
  | reported r =>
    have hlaunched : (countLaunched r.launched (s, l)).2.breaker.Aged l.ticks ∧
        (countLaunched r.launched (s, l)).2.ticks = l.ticks ∧
        (countLaunched r.launched (s, l)).2.breaker.maxFailures = l.breaker.maxFailures ∧
        (countLaunched r.launched (s, l)).2.breaker.tally =
          if r.launched != 0 then l.breaker.tally.clear else l.breaker.tally := by
      unfold countLaunched
      dsimp only
      split
      · next hnone => exact ⟨h, rfl, rfl, by simp [hnone]⟩
      · next hsome =>
        refine ⟨h.recordSuccess, rfl, (Breaker.recordSuccess_same _).1, ?_⟩
        simp [hsome, Breaker.tally_recordSuccess]
    obtain ⟨haged, hticks, hlimit, htally⟩ := hlaunched
    unfold mergeLaunch Tally.merge LaunchEnd.clears LaunchEnd.launched LaunchEnd.fails
    dsimp only
    rw [← htally]
    split
    · unfold countFailure
      dsimp only
      rw [hticks, haged.tally_recordFailure, hlimit]
    · rfl

/-- What ends make of the counts and of the breaker, one after the other. -/
theorem foldl_takeEnd (h : l.breaker.Aged l.ticks) (s : TickSummary)
    (ds : List (Delivered LaunchEnd)) :
    (ds.foldl takeEnd (s, l)).1.launched =
        s.launched + ((ds.map (·.answer)).map LaunchEnd.launched).sum ∧
      (ds.foldl takeEnd (s, l)).1.providerFailures =
        s.providerFailures + (ds.map (·.answer)).countP LaunchEnd.fails ∧
      (ds.foldl takeEnd (s, l)).2.breaker.tally =
        (ds.map (·.answer)).foldl (Tally.merge l.breaker.maxFailures) l.breaker.tally := by
  induction ds generalizing s l with
  | nil => exact ⟨rfl, rfl, rfl⟩
  | cons d rest ih =>
    have hheard : (l.complete d.ended).breaker.Aged (l.complete d.ended).ticks := h
    obtain ⟨hlaunched, hfailures⟩ := counts_mergeLaunch s (l.complete d.ended) d.answer
    have htally := tally_mergeLaunch hheard s d.answer
    obtain ⟨haged, hlimit⟩ := (standing_aged l.breaker.maxFailures).mergeLaunch s d.answer
      ⟨hheard, rfl⟩
    obtain ⟨hrest, hrestfailures, hresttally⟩ :=
      ih haged (mergeLaunch (s, l.complete d.ended) d.answer).1
    simp only [List.foldl_cons, List.map_cons, List.sum_cons, List.countP_cons]
    refine ⟨?_, ?_, ?_⟩
    · exact hrest.trans (by omega)
    · exact hrestfailures.trans (by omega)
    · rw [hlimit, htally] at hresttally
      exact hresttally

end ControlLoop

/-- The end of a launch order, if that is what was answered. -/
def launchEnd? : TickExchange → Option LaunchEnd
  | ⟨⟨_, .awaitLaunch⟩, d⟩ => some d.answer
  | _ => none

/-- The ends of launch orders, as they came. -/
def launchEnds (trace : List TickExchange) : List LaunchEnd := trace.filterMap launchEnd?

namespace Tick

variable {l : ControlLoop} {s : TickSummary} {trace : List TickExchange}

/-- Orders are started without an end. -/
theorem runs_startLaunches {orders : List LaunchOrder} {r : Unit × ControlLoop}
    (h : Runs ((startLaunches orders).run l) trace r) : launchEnds trace = [] ∧ r.2 = l := by
  induction orders generalizing trace with
  | nil =>
    cases h
    exact ⟨rfl, rfl⟩
  | cons o rest ih =>
    change Runs (.ask ⟨l, .launch o⟩ fun _ => (startLaunches rest).run l) trace r at h
    cases h with
    | ask hrest =>
      obtain ⟨hnone, hsame⟩ := ih hrest
      exact ⟨hnone, hsame⟩

theorem exists_runs_startLaunches (orders : List LaunchOrder) (l : ControlLoop) :
    ∃ trace, Runs ((startLaunches orders).run l) trace ((), l) ∧ launchEnds trace = [] := by
  induction orders with
  | nil => exact ⟨[], .done _, rfl⟩
  | cons o rest ih =>
    obtain ⟨trace, hrun, hnone⟩ := ih
    exact ⟨⟨⟨l, .launch o⟩, ()⟩ :: trace, .ask hrun, hnone⟩

/-- Orders are waited for by merging their ends as they come. -/
theorem runs_awaitLaunches {n : Nat} {r : TickSummary × ControlLoop}
    (h : Runs ((awaitLaunches n s).run l) trace r) :
    ∃ ds : List (Delivered LaunchEnd), ds.length = n ∧ launchEnds trace = ds.map (·.answer) ∧
      r = ds.foldl ControlLoop.takeEnd (s, l) := by
  induction n generalizing trace s l with
  | zero =>
    cases h
    exact ⟨[], rfl, rfl, rfl⟩
  | succ n ih =>
    change Runs (.ask ⟨l, .awaitLaunch⟩ fun d => (awaitLaunches n
      (ControlLoop.takeEnd (s, l) d).1).run (ControlLoop.takeEnd (s, l) d).2) trace r at h
    cases h with
    | @ask _ _ d rest _ hrest =>
      obtain ⟨ds, hlength, hends, hresult⟩ := ih hrest
      refine ⟨d :: ds, congrArg (· + 1) hlength, ?_, hresult⟩
      exact congrArg (d.answer :: ·) hends

theorem exists_runs_awaitLaunches (ds : List (Delivered LaunchEnd)) (s : TickSummary)
    (l : ControlLoop) :
    ∃ trace, Runs ((awaitLaunches ds.length s).run l) trace (ds.foldl ControlLoop.takeEnd (s, l)) ∧
      launchEnds trace = ds.map (·.answer) := by
  induction ds generalizing s l with
  | nil => exact ⟨[], .done _, rfl⟩
  | cons d rest ih =>
    obtain ⟨trace, hrun, hends⟩ :=
      ih (ControlLoop.takeEnd (s, l) d).1 (ControlLoop.takeEnd (s, l) d).2
    exact ⟨⟨⟨l, .awaitLaunch⟩, d⟩ :: trace, .ask hrun, congrArg (d.answer :: ·) hends⟩

theorem launchEnds_append (trace trace' : List TickExchange) :
    launchEnds (trace ++ trace') = launchEnds trace ++ launchEnds trace' :=
  List.filterMap_append

/-- A launch counts every end, and merges the ends into the tally of the breaker as they come. -/
theorem runs_launch (h : l.breaker.Aged l.ticks) {deficits : List (String × Nat)}
    {s' : TickSummary} {l' : ControlLoop}
    (hrun : Runs ((launch deficits s).run l) trace (s', l')) :
    s'.launched = s.launched + ((launchEnds trace).map LaunchEnd.launched).sum ∧
      s'.providerFailures = s.providerFailures + (launchEnds trace).countP LaunchEnd.fails ∧
      l'.breaker.tally =
        (launchEnds trace).foldl (Tally.merge l.breaker.maxFailures) l.breaker.tally := by
  change Runs (((startLaunches (l.ordersFor deficits)).run l).bind fun r =>
    (awaitLaunches (l.ordersFor deficits).length s).run r.2) trace (s', l') at hrun
  obtain ⟨first, ⟨_, started⟩, rest, rfl, hstart, hawait⟩ := runs_bind_iff.mp hrun
  obtain ⟨hnone, rfl⟩ := runs_startLaunches hstart
  obtain ⟨ds, -, hends, hresult⟩ := runs_awaitLaunches hawait
  rw [launchEnds_append, hnone, List.nil_append, hends]
  have hmerged := ControlLoop.foldl_takeEnd h s ds
  rw [← hresult] at hmerged
  exact hmerged

/-- The ends of the orders can come in any order. -/
theorem exists_runs_launch (l : ControlLoop) (deficits : List (String × Nat)) (s : TickSummary)
    {ends : List LaunchEnd} (hlength : ends.length = (l.ordersFor deficits).length) :
    ∃ trace s' l', Runs ((launch deficits s).run l) trace (s', l') ∧ launchEnds trace = ends := by
  obtain ⟨first, hstart, hnone⟩ := exists_runs_startLaunches (l.ordersFor deficits) l
  obtain ⟨rest, hawait, hends⟩ := exists_runs_awaitLaunches
    (ends.map fun e => (⟨e, []⟩ : Delivered LaunchEnd)) s l
  rw [List.length_map, hlength] at hawait
  generalize (ends.map fun e => (⟨e, []⟩ : Delivered LaunchEnd)).foldl ControlLoop.takeEnd (s, l) =
    merged at hawait
  obtain ⟨s', l'⟩ := merged
  have hrun : Runs (((startLaunches (l.ordersFor deficits)).run l).bind fun r =>
      (awaitLaunches (l.ordersFor deficits).length s).run r.2) (first ++ rest) (s', l') :=
    runs_bind_iff.mpr ⟨first, ((), l), rest, rfl, hstart, hawait⟩
  refine ⟨first ++ rest, s', l', hrun, ?_⟩
  rw [launchEnds_append, hnone, List.nil_append, hends, List.map_map]
  simp [Function.comp_def]

end Tick

/-- A launch order can end so: with a report that its calls can lead to, or broken down. -/
def LaunchOrder.EndsAs (o : LaunchOrder) : LaunchEnd → Prop
  | .reported report => ∃ trace, Runs o.routine trace report
  | .panicked => True

/-- Whatever a tick lacks when it comes to its launches, and however each order ends: the ends can
come in any order. The nodes that are launched and the failures are counted alike in all of them.
The breaker shows alike whether it has tripped and how many failures are in its window exactly if the
order is free. -/
theorem launch_in_any_order {before l : ControlLoop} {sim : Simulation} {files : FileStore}
    {now : Nat} {time : Duration} {first : List TickExchange} {m : Tick.Midway}
    (harises : Instant.Arises ⟨.resting before, sim⟩)
    (hfirst : Runs ((Tick.toLaunches files now time).run before) first (.ok m, l))
    (deficits : List (String × Nat)) (s : TickSummary) {ends : List LaunchEnd}
    (hends : List.Forall₂ LaunchOrder.EndsAs (l.ordersFor deficits) ends) :
    (∀ order : List LaunchEnd, order.Perm ends →
        ∃ trace s' l', Runs ((Tick.launch deficits s).run l) trace (s', l') ∧
          launchEnds trace = order) ∧
      (∀ trace s' l', Runs ((Tick.launch deficits s).run l) trace (s', l') →
        (launchEnds trace).Perm ends →
          s'.launched = s.launched + (ends.map LaunchEnd.launched).sum ∧
            s'.providerFailures = s.providerFailures + ends.countP LaunchEnd.fails) ∧
      (l.breaker.tally.OrderFree l.breaker.maxFailures ends ↔
        ∀ trace trace' s' s'' l' l'', Runs ((Tick.launch deficits s).run l) trace (s', l') →
          (launchEnds trace).Perm ends →
            Runs ((Tick.launch deficits s).run l) trace' (s'', l'') →
              (launchEnds trace').Perm ends →
                l'.breaker.state.tripped = l''.breaker.state.tripped ∧
                  l'.breaker.state.failuresInWindow = l''.breaker.state.failuresInWindow) := by
  have haged : l.breaker.Aged l.ticks := ControlLoop.Tuned.aged_toLaunches harises.tuned hfirst
  have hany : ∀ order : List LaunchEnd, order.Perm ends →
      ∃ trace s' l', Runs ((Tick.launch deficits s).run l) trace (s', l') ∧
        launchEnds trace = order := fun order horder =>
    Tick.exists_runs_launch l deficits s (horder.length_eq.trans hends.length_eq.symm)
  refine ⟨hany, ?_, ?_⟩
  · intro trace s' l' hrun hperm
    obtain ⟨hlaunched, hfailures, -⟩ := Tick.runs_launch haged hrun
    rw [(hperm.map LaunchEnd.launched).sum_eq] at hlaunched
    rw [hperm.countP_eq] at hfailures
    exact ⟨hlaunched, hfailures⟩
  · rw [Tally.orderFree_iff]
    constructor
    · intro hsame trace trace' s' s'' l' l'' hrun hperm hrun' hperm'
      obtain ⟨-, -, htally⟩ := Tick.runs_launch haged hrun
      obtain ⟨-, -, htally'⟩ := Tick.runs_launch haged hrun'
      have heq : l'.breaker.tally = l''.breaker.tally :=
        htally.trans ((hsame _ _ hperm hperm').trans htally'.symm)
      exact ⟨congrArg Tally.tripped heq, congrArg Tally.count heq⟩
    · intro hsame order order' horder horder'
      obtain ⟨trace, s', l', hrun, rfl⟩ := hany order horder
      obtain ⟨trace', s'', l'', hrun', rfl⟩ := hany order' horder'
      obtain ⟨htripped, hcount⟩ := hsame _ _ _ _ _ _ hrun horder hrun' horder'
      obtain ⟨-, -, htally⟩ := Tick.runs_launch haged hrun
      obtain ⟨-, -, htally'⟩ := Tick.runs_launch haged hrun'
      rw [← htally, ← htally']
      unfold Breaker.tally
      exact congrArg₂ Tally.mk htripped hcount

/-- An order for one node gets it, or ends with a failure. -/
def LaunchEnd.ofOne (nodeType : String) (got : Bool) : LaunchEnd :=
  .reported (if got then ⟨nodeType, 1, none⟩ else ⟨nodeType, 0, some (.permanent "down")⟩)

theorem LaunchOrder.endsAs_ofOne {l : ControlLoop} {o : LaunchOrder} {nodeType : String}
    (h : l.launchOrder? nodeType 1 = some o) (got : Bool) : o.EndsAs (.ofOne nodeType got) := by
  obtain ⟨rfl, hcount, hbatch⟩ := ControlLoop.launchOrder?_eq_some h
  change ∃ trace, Runs o.routine trace _
  unfold LaunchOrder.routine
  rw [hcount]
  unfold LaunchOrder.batches
  rw [if_pos (by omega)]
  have hone : min (o.count - 0) o.batch = 1 := by omega
  cases got with
  | false => exact ⟨[⟨.createNodes o.template o.tags _, .error (.permanent "down")⟩], .ask (.done _)⟩
  | true =>
    refine ⟨[⟨.createNodes o.template o.tags _, .ok ()⟩], .ask ?_⟩
    rw [hone]
    exact .done _

/-- Orders for one node each end as they like. -/
theorem ControlLoop.endsAs_ordersFor_ones {l : ControlLoop} (ends : List (String × Bool))
    (h : ∀ nodeType ∈ ends.map (·.1), (l.launchOrder? nodeType 1).isSome = true) :
    List.Forall₂ LaunchOrder.EndsAs (l.ordersFor (ends.map fun p => (p.1, 1)))
      (ends.map fun p => .ofOne p.1 p.2) := by
  induction ends with
  | nil => exact .nil
  | cons p rest ih =>
    obtain ⟨o, ho⟩ := Option.isSome_iff_exists.mp (h p.1 List.mem_cons_self)
    have hcons : l.ordersFor ((p :: rest).map fun p => (p.1, 1)) =
        o :: l.ordersFor (rest.map fun p => (p.1, 1)) := List.filterMap_cons_some ho
    rw [hcons]
    exact .cons (LaunchOrder.endsAs_ofOne ho p.2) (ih fun t ht => h t (List.mem_cons_of_mem _ ht))

/-- A cluster that needs a node of each of three types, and whose breaker trips at the second
failure. -/
def ClusterConfig.threeTypes : ClusterConfig where
  clusterName := "c"
  headNodeType := "head"
  tunables := { maxFailures := 2 }
  provider := .inMemory true
  nodeTypes := Table.ofList [("a", { minWorkers := 1, maxWorkers := 1 }),
    ("b", { minWorkers := 1, maxWorkers := 1 }), ("head", { minWorkers := 1, maxWorkers := 1 })]

/-- What that cluster lacks at first. -/
def ofThreeTypes : List (String × Nat) := [("head", 1), ("a", 1), ("b", 1)]

/-- The way of a loop to its launches while every call succeeds and no nodes are listed. -/
def ControlLoop.unhindered (l : ControlLoop) :
    List TickExchange × Except LoopError Tick.Midway × ControlLoop :=
  ((Tick.toLaunches .empty 0 ⟨0⟩).run l).replay (fun a : TickAsk => a.question.succeed)

/-- A loop comes to its launches with an untouched breaker that trips at the second failure, and
lacks a node of each of three types. -/
def Tick.Midway.LacksThree (m : Tick.Midway) (l : ControlLoop) : Prop :=
  m.planner.planLaunches m.plan.remaining m.plan.targets = ofThreeTypes ∧
    (∀ nodeType ∈ ["head", "a", "b"], (l.launchOrder? nodeType 1).isSome = true) ∧
      l.breaker.tally = ⟨false, 0⟩ ∧ l.breaker.maxFailures = 2

instance (m : Tick.Midway) (l : ControlLoop) : Decidable (m.LacksThree l) :=
  inferInstanceAs (Decidable (_ ∧ _))

/-- A new loop of that cluster comes so to its launches. -/
theorem exists_toLaunches_threeTypes :
    ∃ before sim first m l, Instant.Arises ⟨.resting before, sim⟩ ∧
      Runs ((Tick.toLaunches .empty 0 ⟨0⟩).run before) first (.ok m, l) ∧ m.LacksThree l := by
  have hway : ((ControlLoop.new .empty .threeTypes).toOption.map fun before =>
      before.unhindered.2.1.toOption.map fun m => decide (m.LacksThree before.unhindered.2.2)) =
        some (some true) := by
    decide +kernel
  cases hnew : ControlLoop.new .empty .threeTypes with
  | error e =>
    rw [hnew] at hway
    cases hway
  | ok before =>
    rw [hnew] at hway
    have hreached := Option.some.inj hway
    have hrun : Runs ((Tick.toLaunches .empty 0 ⟨0⟩).run before) before.unhindered.1
        before.unhindered.2 :=
      (runs_replay (fun a : TickAsk => a.question.succeed) _).1
    dsimp only at hreached
    generalize before.unhindered = reached at hreached hrun
    obtain ⟨first, result, l⟩ := reached
    cases result with
    | error e => cases hreached
    | ok m =>
      exact ⟨before, { world := ⟨.inMemory {}, .empty, {}⟩ }, first, m, l,
        ⟨_, .of_new hnew fun _ => rfl, .refl⟩, hrun,
        of_decide_eq_true (Option.some.inj hreached)⟩

/-- Where no order gets its node, it does not matter which of them ends last. -/
theorem launch_in_any_order_threeTypes :
    ∃ before sim first m l, Instant.Arises ⟨.resting before, sim⟩ ∧
      Runs ((Tick.toLaunches .empty 0 ⟨0⟩).run before) first (.ok m, l) ∧
        m.planner.planLaunches m.plan.remaining m.plan.targets = ofThreeTypes ∧
          List.Forall₂ LaunchOrder.EndsAs (l.ordersFor ofThreeTypes)
            [.ofOne "head" false, .ofOne "a" false, .ofOne "b" false] ∧
          ∃ trace trace' s s' l' l'',
            Runs ((Tick.launch ofThreeTypes m.summary).run l) trace (s, l') ∧
              launchEnds trace = [.ofOne "head" false, .ofOne "a" false, .ofOne "b" false] ∧
                Runs ((Tick.launch ofThreeTypes m.summary).run l) trace' (s', l'') ∧
                  launchEnds trace' = [.ofOne "b" false, .ofOne "a" false, .ofOne "head" false] ∧
                    s.providerFailures = m.summary.providerFailures + 3 ∧
                      s'.providerFailures = m.summary.providerFailures + 3 ∧
                      l'.breaker.state.tripped = l''.breaker.state.tripped ∧
                        l'.breaker.state.failuresInWindow = l''.breaker.state.failuresInWindow := by
  obtain ⟨before, sim, first, m, l, harises, hfirst, hdeficits, horders, htally, hlimit⟩ :=
    exists_toLaunches_threeTypes
  have hends : List.Forall₂ LaunchOrder.EndsAs (l.ordersFor ofThreeTypes)
      [.ofOne "head" false, .ofOne "a" false, .ofOne "b" false] :=
    ControlLoop.endsAs_ordersFor_ones [("head", false), ("a", false), ("b", false)] horders
  obtain ⟨hany, hcounts, hfree⟩ :=
    launch_in_any_order harises hfirst ofThreeTypes m.summary hends
  have hreverse : [LaunchEnd.ofOne "b" false, .ofOne "a" false, .ofOne "head" false].Perm
      [.ofOne "head" false, .ofOne "a" false, .ofOne "b" false] :=
    List.reverse_perm [LaunchEnd.ofOne "head" false, .ofOne "a" false, .ofOne "b" false]
  obtain ⟨trace, s, l', hrun, htrace⟩ := hany _ (.refl _)
  obtain ⟨trace', s', l'', hrun', htrace'⟩ := hany _ hreverse
  have hperm : (launchEnds trace).Perm _ := .of_eq htrace
  have hperm' : (launchEnds trace').Perm _ := htrace' ▸ hreverse
  have hnone : l.breaker.tally.OrderFree l.breaker.maxFailures
      [.ofOne "head" false, .ofOne "a" false, .ofOne "b" false] := by
    rw [htally, hlimit]
    decide
  obtain ⟨htripped, hwindow⟩ := hfree.mp hnone _ _ _ _ _ _ hrun hperm hrun' hperm'
  exact ⟨before, sim, first, m, l, harises, hfirst, hdeficits, hends, trace, trace', s, s', l', l'',
    hrun, htrace, hrun', htrace', (hcounts _ _ _ hrun hperm).2, (hcounts _ _ _ hrun' hperm').2,
    htripped, hwindow⟩

/-- Where one order gets its node and two fail, it matters whether the failures end one after the
other. -/
theorem launch_order_matters_threeTypes :
    ∃ before sim first m l, Instant.Arises ⟨.resting before, sim⟩ ∧
      Runs ((Tick.toLaunches .empty 0 ⟨0⟩).run before) first (.ok m, l) ∧
        m.planner.planLaunches m.plan.remaining m.plan.targets = ofThreeTypes ∧
          List.Forall₂ LaunchOrder.EndsAs (l.ordersFor ofThreeTypes)
            [.ofOne "head" false, .ofOne "a" true, .ofOne "b" false] ∧
          ∃ trace trace' s s' l' l'',
            Runs ((Tick.launch ofThreeTypes m.summary).run l) trace (s, l') ∧
              launchEnds trace = [.ofOne "head" false, .ofOne "a" true, .ofOne "b" false] ∧
                Runs ((Tick.launch ofThreeTypes m.summary).run l) trace' (s', l'') ∧
                  launchEnds trace' = [.ofOne "head" false, .ofOne "b" false, .ofOne "a" true] ∧
                    l'.breaker.state.tripped = false ∧ l'.breaker.state.failuresInWindow = 1 ∧
                      l''.breaker.state.tripped = true ∧
                        l''.breaker.state.failuresInWindow = 2 := by
  obtain ⟨before, sim, first, m, l, harises, hfirst, hdeficits, horders, htally, hlimit⟩ :=
    exists_toLaunches_threeTypes
  have haged : l.breaker.Aged l.ticks := ControlLoop.Tuned.aged_toLaunches harises.tuned hfirst
  have hends : List.Forall₂ LaunchOrder.EndsAs (l.ordersFor ofThreeTypes)
      [.ofOne "head" false, .ofOne "a" true, .ofOne "b" false] :=
    ControlLoop.endsAs_ordersFor_ones [("head", false), ("a", true), ("b", false)] horders
  obtain ⟨trace, s, l', hrun, htrace⟩ := Tick.exists_runs_launch l ofThreeTypes m.summary
    hends.length_eq.symm
  have hlength : [LaunchEnd.ofOne "head" false, .ofOne "b" false, .ofOne "a" true].length =
      (l.ordersFor ofThreeTypes).length := hends.length_eq.symm
  obtain ⟨trace', s', l'', hrun', htrace'⟩ :=
    Tick.exists_runs_launch l ofThreeTypes m.summary hlength
  obtain ⟨-, -, hbreaker⟩ := Tick.runs_launch haged hrun
  obtain ⟨-, -, hbreaker'⟩ := Tick.runs_launch haged hrun'
  rw [htrace, htally, hlimit] at hbreaker
  rw [htrace', htally, hlimit] at hbreaker'
  exact ⟨before, sim, first, m, l, harises, hfirst, hdeficits, hends, trace, trace', s, s', l', l'',
    hrun, htrace, hrun', htrace', congrArg Tally.tripped hbreaker, congrArg Tally.count hbreaker,
    congrArg Tally.tripped hbreaker', congrArg Tally.count hbreaker'⟩

end ClusterScaler
