import ClusterScaler.Proofs.Exclusion.Jobs
import ClusterScaler.Proofs.Exclusion.Tick
import Mathlib.Logic.Relation

/-!
# The instants of a run

A run passes from instant to instant: the loop rests or is in the middle of a tick, and jobs are
in the background. Between two instants one thing happens, in any order: a job takes a step, time
passes or the provider changes, the tick gets an answer of any kind, a tick begins, ends or is cut
short, an operator's command is obeyed, ends of updaters are noted. One invariant, `Exclusive`, is
kept by each of these, and with it updaters and terminations exclude each other at every instant.
-/

set_option autoImplicit false

namespace ClusterScaler

/-- What is left of a tick. -/
abbrev TickRest := Program TickAsk TickAsk.Reply (Except LoopError TickSummary × ControlLoop)

/-- What the control loop is doing. -/
inductive Activity where
  | resting (l : ControlLoop)
  /-- A tick is under way; `answered` are its questions that have been answered. -/
  | ticking (answered : List Question) (rest : TickRest)

namespace Activity

/-- The question that waits for its answer. -/
def pending : Activity → List Question
  | resting _ | ticking _ (.done _) => []
  | ticking _ (.ask a _) => [a.question]

/-- What the tick that is under way has asked, answered or not. -/
def asked : Activity → List Question
  | resting _ => []
  | ticking answered rest => answered ++ (ticking answered rest).pending

end Activity

/-- An instant of a run. -/
structure Instant where
  activity : Activity
  simulation : Simulation

namespace Instant

/-- What may happen next. -/
inductive Step : Instant → Instant → Prop where
  /-- Time passes, the provider changes, or faults are queued. -/
  | scene (a : Activity) (s : Simulation) (scene : Scene) :
      Step ⟨a, s⟩ ⟨a, { s with toScene := scene }⟩
  /-- A job takes a step. -/
  | job (a : Activity) {s : Simulation} {job : Job} {others : List Job} :
      s.jobs.Perm (job :: others) → Step ⟨a, s⟩ ⟨a, s.runJob job others⟩
  | tickBegins (l : ControlLoop) (s : Simulation) (files : FileStore) (now : Nat)
      (time : Duration) : Step ⟨.resting l, s⟩ ⟨.ticking [] ((tick files now time).run l), s⟩
  /-- A request is answered, and the ends that came meanwhile are noted. -/
  | answer (answered : List Question) (l : ControlLoop) (r : Request)
      (next : Delivered r.Reply → TickRest) (s : Simulation) (reply : r.Reply) :
      Step ⟨.ticking answered (.ask ⟨l, .request r⟩ next), s⟩
        ⟨.ticking (answered ++ [.request r]) (next (s.deliver reply).1), (s.deliver reply).2⟩
  | dispatch (answered : List Question) (l : ControlLoop) (u : Update) (next : Unit → TickRest)
      (s : Simulation) :
      Step ⟨.ticking answered (.ask ⟨l, .dispatch u⟩ next), s⟩
        ⟨.ticking (answered ++ [.dispatch u]) (next ()), s.add (.startUpdate u)⟩
  | abandon (answered : List Question) (l : ControlLoop) (nodes : List NodeId)
      (next : Unit → TickRest) (s : Simulation) :
      Step ⟨.ticking answered (.ask ⟨l, .abandon nodes⟩ next), s⟩
        ⟨.ticking (answered ++ [.abandon nodes]) (next ()), s.dropUpdaters nodes⟩
  | launch (answered : List Question) (l : ControlLoop) (order : LaunchOrder)
      (next : Unit → TickRest) (s : Simulation) :
      Step ⟨.ticking answered (.ask ⟨l, .launch order⟩ next), s⟩
        ⟨.ticking (answered ++ [.launch order]) (next ()), s.add (.startLaunch order)⟩
  /-- The end of a launch order is reported, and the ends that came meanwhile are noted. -/
  | launchEnds (answered : List Question) (l : ControlLoop)
      (next : Delivered LaunchEnd → TickRest) (s : Simulation) (ended : LaunchEnd)
      (launchEnds : List LaunchEnd) :
      Step ⟨.ticking answered (.ask ⟨l, .awaitLaunch⟩ next), s⟩
        ⟨.ticking (answered ++ [.awaitLaunch])
            (next (({ s with launchEnds } : Simulation).deliver ended).1),
          (({ s with launchEnds } : Simulation).deliver ended).2⟩
  | tickEnds (answered : List Question) (result : Except LoopError TickSummary)
      (l : ControlLoop) (s : Simulation) :
      Step ⟨.ticking answered (.done (result, l)), s⟩ ⟨.resting l, s⟩
  /-- A tick is cut short at its deadline. -/
  | cut (answered : List Question) (a : TickAsk) (next : a.Reply → TickRest) (s : Simulation) :
      Step ⟨.ticking answered (.ask a next), s⟩ ⟨.resting a.loop, s.dropLaunches⟩
  | noteEnds (l : ControlLoop) (s : Simulation) :
      Step ⟨.resting l, s⟩ ⟨.resting (l.complete s.takeEnds.1), s.takeEnds.2⟩
  /-- Heartbeats, demand or commands come in, or a status is published. -/
  | feeds (l : ControlLoop) (s : Simulation) (feeds : Feeds) :
      Step ⟨.resting l, s⟩ ⟨.resting { l with toFeeds := feeds }, s⟩
  | obey (l : ControlLoop) (s : Simulation) (files : FileStore) (command : ControlCommand) :
      Step ⟨.resting l, s⟩ ⟨.resting (l.obey files command), s⟩
  /-- All updaters have been waited for. -/
  | drain (l : ControlLoop) (time : Duration) {s : Simulation} : (∀ n, s.flights n = 0) →
      Step ⟨.resting l, s⟩
        ⟨.resting { l with
          updaters := (l.updaters.drain time).2
          finished := l.finished ++ (l.updaters.drain time).1 }, s⟩
  /-- The loop is shut down. -/
  | stop (l : ControlLoop) (s : Simulation) :
      Step ⟨.resting l, s⟩
        ⟨.resting { l with updaters := l.updaters.abortAll },
          s.dropUpdaters l.updaters.slots.keys⟩

/-- Any number of steps. -/
abbrev Steps : Instant → Instant → Prop := Relation.ReflTransGen Step

/-- The loop rests, and no updater has been sent out yet. -/
def Initial (i : Instant) : Prop :=
  ∃ l, i.activity = .resting l ∧ ∀ n, i.simulation.flights n = 0

/-- An instant that a run can come to. -/
def Reachable (i : Instant) : Prop := ∃ start, Initial start ∧ Steps start i

theorem Reachable.tail {i j : Instant} (h : Reachable i) (hstep : Step i j) : Reachable j := by
  obtain ⟨start, hstart, hsteps⟩ := h
  exact ⟨start, hstart, hsteps.tail hstep⟩

/-- The pool tracks the updaters under way, a tick under way will keep to the exclusion, and it has
kept to it so far. -/
def Exclusive : Instant → Prop
  | ⟨.resting l, s⟩ => l.updaters.Tracks s.flights
  | ⟨.ticking answered rest, s⟩ =>
    rest.Meets Watch.protocol (fun r w => r.2.updaters.Tracks w.flights) ⟨s.flights, answered⟩ ∧
      Watch.Apart ⟨s.flights, answered⟩

/-- The answer to a permitted question keeps the exclusion. -/
theorem Exclusive.answer {answered : List Question} {a : TickAsk} {next : a.Reply → TickRest}
    {s s' : Simulation} {reply : a.Reply} (h : Exclusive ⟨.ticking answered (.ask a next), s⟩)
    (hmoves : a.question.Moves reply s.flights s'.flights) :
    Exclusive ⟨.ticking (answered ++ [a.question]) (next reply), s'⟩ := by
  obtain ⟨⟨hpermits, hnext⟩, hapart⟩ := h
  exact ⟨hnext reply ⟨s'.flights, answered ++ [a.question]⟩ ⟨hmoves, rfl⟩,
    hapart.ask hpermits rfl⟩

/-- What happens next keeps the exclusion. -/
theorem Exclusive.step {i j : Instant} (h : Exclusive i) (hstep : Step i j) : Exclusive j := by
  cases hstep with
  | scene a s scene => cases a <;> exact h
  | @job a s job others hperm =>
    have hflights := Simulation.flights_runJob hperm
    cases a with
    | resting l =>
      unfold Exclusive
      dsimp only
      rw [hflights]
      exact h
    | ticking answered rest =>
      unfold Exclusive
      dsimp only
      rw [hflights]
      exact h
  | tickBegins l s files now time =>
    exact ⟨Watch.tick_meets_watch files now time h, fun n hn => absurd hn List.not_mem_nil⟩
  | answer answered l r next s reply =>
    exact h.answer (fun n => s.flights_takeEnds n)
  | dispatch answered l u next s =>
    exact h.answer (s.flights_add_startUpdate u)
  | abandon answered l nodes next s =>
    exact h.answer (s.flights_dropUpdaters nodes)
  | launch answered l order next s =>
    exact h.answer (s.flights_add_startLaunch order)
  | launchEnds answered l next s ended launchEnds =>
    exact h.answer (fun n => ({ s with launchEnds } : Simulation).flights_takeEnds n)
  | tickEnds answered result l s => exact h.1
  | cut answered a next s =>
    unfold Exclusive
    dsimp only
    rw [Simulation.flights_dropLaunches]
    exact h.1.1.1
  | noteEnds l s =>
    exact UpdaterPool.Tracks.completeAll h (fun n => s.flights_takeEnds n)
  | feeds l s feeds => exact h
  | obey l s files command =>
    unfold Exclusive
    dsimp only
    rw [ControlLoop.updaters_obey]
    exact h
  | drain l time hnone => exact UpdaterPool.tracks_of_forall_eq_zero hnone
  | stop l s =>
    apply UpdaterPool.tracks_of_forall_eq_zero
    intro n
    rw [Simulation.flights_dropUpdaters]
    exact UpdaterPool.Tracks.stop_keys h n

theorem Exclusive.tracks {i : Instant} (h : Exclusive i) :
    ∃ p : UpdaterPool, p.Tracks i.simulation.flights := by
  obtain ⟨activity, s⟩ := i
  cases activity with
  | resting l => exact ⟨l.updaters, h⟩
  | ticking answered rest =>
    cases rest with
    | done result => exact ⟨result.2.updaters, h.1⟩
    | ask a next => exact ⟨a.loop.updaters, h.1.1.1⟩

/-- At an exclusive instant no node whose termination is asked for has an updater under way. -/
theorem Exclusive.flights_eq_zero {i : Instant} (h : Exclusive i) {q : Question}
    (hq : q ∈ i.activity.pending) {n : NodeId} (hn : n ∈ q.terminated) :
    i.simulation.flights n = 0 := by
  obtain ⟨activity, s⟩ := i
  cases activity with
  | resting l => cases hq
  | ticking answered rest =>
    cases rest with
    | done result => cases hq
    | ask a next =>
      have heq : q = a.question := List.mem_singleton.mp hq
      subst heq
      exact (h.1.1.2.1 n hn).1

theorem Exclusive.apart {i : Instant} (h : Exclusive i) :
    Watch.Apart ⟨i.simulation.flights, i.activity.asked⟩ := by
  obtain ⟨activity, s⟩ := i
  cases activity with
  | resting l => exact fun n hn => absurd hn List.not_mem_nil
  | ticking answered rest =>
    cases rest with
    | done result =>
      have hasked : (Activity.ticking answered (.done result)).asked = answered :=
        List.append_nil answered
      dsimp only
      rw [hasked]
      exact h.2
    | ask a next => exact h.2.ask h.1.1 rfl

/-- Every instant of a run keeps the exclusion. -/
theorem Reachable.exclusive {i : Instant} (h : Reachable i) : Exclusive i := by
  obtain ⟨⟨activity, s⟩, ⟨l, rfl, hnone⟩, hsteps⟩ := h
  induction hsteps with
  | refl => exact UpdaterPool.tracks_of_forall_eq_zero hnone
  | tail _ hstep ih => exact ih.step hstep

/-- In every run, whatever the order of ticks, commands, answers, failures and steps of updaters: at
every instant a node has at most one updater that can take a step, no node whose termination is
being asked for has one, and no tick asks to terminate a node to which it also sends one, however
the termination is answered. -/
theorem updaters_exclude_terminations {i : Instant} (h : Reachable i) :
    (∀ n, i.simulation.updaterJobs n ≤ 1) ∧
      (∀ q ∈ i.activity.pending, ∀ n ∈ q.terminated, i.simulation.updaterJobs n = 0) ∧
      ∀ n ∈ i.activity.asked.flatMap Question.terminated,
        n ∉ i.activity.asked.filterMap Question.dispatched? := by
  have hexclusive := h.exclusive
  obtain ⟨p, htracks⟩ := hexclusive.tracks
  refine ⟨?_, ?_, hexclusive.apart⟩
  · intro n
    have hjobs : i.simulation.updaterJobs n ≤ i.simulation.flights n := Nat.le_add_right _ _
    have hflights := (htracks n).1
    omega
  · intro q hq n hn
    have hjobs : i.simulation.updaterJobs n ≤ i.simulation.flights n := Nat.le_add_right _ _
    have hflights := hexclusive.flights_eq_zero hq hn
    omega

/-- While a tick asks to terminate a node without tags, no updater of that node can take a step. -/
theorem updaters_exclude_terminations_at_untagged :
    ∃ i nodes, Reachable i ∧
      i.activity.pending = [.request (.terminateNodes (⟨"a"⟩ :: nodes))] ∧
        i.simulation.updaterJobs ⟨"a"⟩ = 0 := by
  have hstart : Reachable ⟨.resting (ControlLoop.ofHeadType { maxWorkers := 1 }),
      { world := ⟨.inMemory {}, .empty, {}⟩ }⟩ := ⟨_, ⟨_, rfl, fun _ => rfl⟩, .refl⟩
  have hbegun := hstart.tail (.tickBegins _ _ .empty 0 ⟨0⟩)
  have habandoned := hbegun.tail (.abandon _ _ _ _ _)
  have hlisted := habandoned.tail (.answer _ _ (.listNodes _) _ _ (.ok [⟨"a"⟩]))
  have htags := hlisted.tail (.answer _ _ (.nodeTags _) _ _ (.ok ∅))
  have hplanned := htags.tail (.answer _ _ (.isRunning _) _ _ (.ok true))
  refine ⟨_, _, hplanned, rfl, ?_⟩
  exact (updaters_exclude_terminations hplanned).2.1 _ (List.mem_singleton.mpr rfl) _
    List.mem_cons_self

end Instant

end ClusterScaler
