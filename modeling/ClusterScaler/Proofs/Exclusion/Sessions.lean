import ClusterScaler.Proofs.Exclusion.Instants

/-!
# Sessions pass from instant to instant

A simulated session settles in which order things happen, and everything it does is a run: jobs
take their steps one by one, and a tick goes from question to answer until it ends or is cut short.
So what holds at every instant of a run holds in a session.
-/

set_option autoImplicit false

namespace ClusterScaler

namespace Job

theorem next?_eq_none {jobs : List Job} (h : next? jobs = none) : jobs = [] := by
  cases jobs with
  | nil => rfl
  | cons j rest =>
    unfold next? at h
    cases hrest : next? rest with
    | none =>
      rw [hrest] at h
      cases h
    | some next =>
      rw [hrest] at h
      dsimp only at h
      split at h <;> cases h

/-- The job that goes next and the others are all jobs. -/
theorem next?_perm {jobs others : List Job} {job : Job} (h : next? jobs = some (job, others)) :
    jobs.Perm (job :: others) := by
  induction jobs generalizing job others with
  | nil => cases h
  | cons j rest ih =>
    unfold next? at h
    cases hrest : next? rest with
    | none =>
      rw [hrest] at h
      cases h
      rw [next?_eq_none hrest]
    | some next =>
      obtain ⟨k, behind⟩ := next
      rw [hrest] at h
      dsimp only at h
      split at h
      · cases h
        exact ((ih hrest).cons j).trans (.swap _ j behind)
      · cases h
        exact .refl _

end Job

namespace Instant

variable {i j : Instant}

theorem steps_runJobs (a : Activity) (stop : Simulation → Bool) (limit fuel : Nat)
    (s : Simulation) : Steps ⟨a, s⟩ ⟨a, s.runJobs stop limit fuel⟩ := by
  induction fuel generalizing s with
  | zero => exact .refl
  | succ fuel ih =>
    unfold Simulation.runJobs
    split
    · exact .refl
    · split
      · exact .refl
      · next job others hnext =>
        split
        · exact .head (.job a (Job.next?_perm hnext)) (ih _)
        · exact .refl

theorem steps_passTo (a : Activity) (s : Simulation) (time : Nat) :
    Steps ⟨a, s⟩ ⟨a, s.passTo time⟩ :=
  (steps_runJobs a _ _ _ s).tail (.scene a _ _)

theorem steps_awaitLaunch (a : Activity) (s : Simulation) (deadline : Option Nat) :
    Steps ⟨a, s⟩ ⟨a, s.awaitLaunch deadline⟩ := by
  unfold Simulation.awaitLaunch
  dsimp only
  split
  · exact steps_runJobs a _ _ _ s
  · exact (steps_runJobs a _ _ _ s).trans (steps_runJobs a _ _ _ _)

/-- From an instant a tick comes to this end, unless it breaks down. -/
def Ends (i : Instant) :
    TickEnd (Except LoopError TickSummary × ControlLoop) × Simulation → Prop
  | (.ended (_, l), s) | (.cut l, s) => Steps i ⟨.resting l, s⟩
  | (.panicked, _) => True

theorem Ends.head {r : TickEnd (Except LoopError TickSummary × ControlLoop) × Simulation}
    (h : j.Ends r) (hsteps : Steps i j) : i.Ends r := by
  obtain ⟨ended, s⟩ := r
  cases ended with
  | ended result => exact hsteps.trans h
  | cut l => exact hsteps.trans h
  | panicked => trivial

theorem steps_cutShort (answered : List Question) (a : TickAsk) (next : a.Reply → TickRest)
    (s : Simulation) (deadline : Nat) :
    Steps ⟨.ticking answered (.ask a next), s⟩
      ⟨.resting a.loop, (s.passTo deadline).dropLaunches⟩ :=
  (steps_passTo _ s deadline).tail (.cut answered a next _)

/-- A tick in the foreground of a simulation passes from question to answer to its end. -/
theorem ends_runTick (deadline : Option Nat) (rest : TickRest) (answered : List Question)
    (s : Simulation) : Ends ⟨.ticking answered rest, s⟩ (s.runTick deadline rest) := by
  induction rest generalizing answered s with
  | done result => exact .single (.tickEnds answered result.1 result.2 s)
  | ask a next ih =>
    obtain ⟨l, q⟩ := a
    cases q with
    | request r =>
      unfold Simulation.runTick
      -- the answer is delivered, now or once it is due
      have hanswered : ∀ (s' : Simulation) (reply : r.Reply),
          Ends ⟨.ticking answered (.ask ⟨l, .request r⟩ next), s'⟩
            ((s'.deliver reply).2.runTick deadline (next (s'.deliver reply).1)) :=
        fun s' reply =>
          (ih _ _ _).head (.single (.answer answered l r next s' reply))
      have hlater : ∀ (s' : Simulation) (due : Nat),
          Ends ⟨.ticking answered (.ask ⟨l, .request r⟩ next), s'⟩
            (({ s'.passTo due with toScene := ((s'.passTo due).answer r).2 }.deliver
              ((s'.passTo due).answer r).1).2.runTick deadline
                (next ({ s'.passTo due with toScene := ((s'.passTo due).answer r).2 }.deliver
                  ((s'.passTo due).answer r).1).1)) :=
        fun s' due => (hanswered _ _).head ((steps_passTo _ s' due).tail (.scene _ _ _))
      split
      · trivial
      · exact (hanswered _ _).head (.single (.scene _ s _))
      · next due scene _ =>
        dsimp only
        split
        · next d =>
          split
          · have hcut := steps_cutShort answered ⟨l, .request r⟩ next { s with toScene := scene } d
            have hend : Ends ⟨.ticking answered (.ask ⟨l, .request r⟩ next),
                { s with toScene := scene }⟩
                (.cut l, { (({ s with toScene := scene } : Simulation).passTo d).dropLaunches with
                  toScene := (({ s with toScene := scene } : Simulation).passTo
                    d).dropLaunches.leave r }) := hcut.tail (.scene _ _ _)
            exact hend.head (.single (.scene _ s scene))
          · exact (hlater _ due).head (.single (.scene _ s scene))
        · exact (hlater _ due).head (.single (.scene _ s scene))
    | dispatch u =>
      unfold Simulation.runTick
      split
      · trivial
      · exact (ih () _ _).head (.single (.dispatch answered l u next s))
    | abandon nodes =>
      exact (ih () _ _).head (.single (.abandon answered l nodes next s))
    | launch order =>
      exact (ih () _ _).head (.single (.launch answered l order next s))
    | awaitLaunch =>
      unfold Simulation.runTick
      dsimp only
      refine Ends.head ?_ (steps_awaitLaunch _ s deadline)
      split
      · next ended launchEnds _ =>
        exact (ih _ _ _).head (.single (.launchEnds answered l next _ ended launchEnds))
      · split
        · next d _ =>
          exact steps_cutShort answered ⟨l, .awaitLaunch⟩ next _ d
        · trivial

end Instant

namespace Session

open Instant

/-- The instant at which a session stands between ticks. -/
def instant (s : Session) : Instant := ⟨.resting s.loop, s.simulation⟩

variable {s s' : Session}

theorem steps_takeEnds (s : Session) : Steps s.instant s.takeEnds.instant :=
  .single (.noteEnds s.loop s.simulation)

theorem steps_settle (s : Session) : Steps s.instant s.settle.instant := by
  have hsettled : Steps s.instant ⟨.resting s.loop, s.simulation.settle⟩ :=
    steps_runJobs (.resting s.loop) _ _ _ s.simulation
  exact hsettled.trans (steps_takeEnds { s with simulation := s.simulation.settle })

theorem steps_pass (s : Session) (time : Nat) :
    Steps s.instant ({ s with simulation := s.simulation.passTo time } : Session).takeEnds.instant :=
  (steps_passTo (.resting s.loop) s.simulation time).trans
    (steps_takeEnds { s with simulation := s.simulation.passTo time })

/-- Time that passes in a session passes in steps. -/
theorem steps_sleep (s : Session) (millis : Nat) : Steps s.instant (s.sleep millis).instant :=
  (s.steps_pass _).trans (steps_settle _)

theorem steps_tickUntil {deadline : Option Nat} {now : Nat}
    {result : Except LoopError TickSummary} (h : s.tickUntil deadline now = some (result, s')) :
    Steps s.instant s'.instant := by
  have hbegins : Steps s.instant ⟨.ticking [] ((ClusterScaler.tick s.simulation.world.files now
      s.time).run s.loop), s.simulation⟩ :=
    .single (.tickBegins s.loop s.simulation s.simulation.world.files now s.time)
  have hends := (ends_runTick deadline ((ClusterScaler.tick s.simulation.world.files now
    s.time).run s.loop) [] s.simulation).head hbegins
  unfold tickUntil at h
  dsimp only at h
  split at h
  · next ended loop simulation hrun =>
    cases h
    rw [hrun] at hends
    exact hends.trans (steps_takeEnds { s with simulation, loop })
  · next loop simulation hrun =>
    cases h
    rw [hrun] at hends
    exact hends.trans (steps_takeEnds { s with simulation, loop })
  · cases h

/-- A tick of a session passes from instant to instant. -/
theorem steps_tick {now : Nat} {result : Except LoopError TickSummary}
    (h : s.tick now = some (result, s')) : Steps s.instant s'.instant := by
  unfold tick at h
  rw [Option.map_eq_some_iff] at h
  obtain ⟨⟨result', ticked⟩, hticked, heq⟩ := h
  cases heq
  exact (steps_tickUntil hticked).trans (steps_settle ticked)

theorem steps_boundedTick {now : Nat} (h : s.boundedTick now = some s') :
    Steps s.instant s'.instant := by
  unfold boundedTick at h
  dsimp only at h
  obtain ⟨⟨result, ticked⟩, hticked, hpublished⟩ := Option.bind_eq_some_iff.mp h
  have hsteps := steps_tickUntil hticked
  dsimp only at hpublished
  split at hpublished
  · cases hpublished
    exact hsteps
  · cases hpublished
    exact hsteps.tail (.feeds ticked.loop ticked.simulation _)
  · cases hpublished
    exact hsteps.tail (.feeds ticked.loop ticked.simulation _)

/-- Ticks in an interval pass from instant to instant. -/
theorem steps_runTicks {now stop fuel due : Nat} (h : s.runTicks now stop fuel due = some s') :
    Steps s.instant s'.instant := by
  induction fuel generalizing due s with
  | zero =>
    cases h
    exact .refl
  | succ fuel ih =>
    unfold runTicks at h
    split at h
    · cases h
      exact .refl
    · dsimp only at h
      obtain ⟨ticked, hticked, hrest⟩ := Option.bind_eq_some_iff.mp h
      have hsteps := (s.steps_pass due).trans (steps_boundedTick hticked)
      split at hrest
      · exact hsteps.trans (ih hrest)
      · split at hrest
        · cases hrest
        · exact hsteps.trans (ih hrest)

theorem steps_stopUpdaters (s : Session) : Steps s.instant s.stopUpdaters.instant :=
  .single (.stop s.loop s.simulation)

/-- A loop that runs for a time and is then stopped passes from instant to instant. -/
theorem steps_runFor {now millis : Nat} (h : s.runFor now millis = some s') :
    Steps s.instant s'.instant := by
  unfold runFor at h
  split at h
  · cases h
  · dsimp only at h
    obtain ⟨ticked, hticked, hstopped⟩ := Option.bind_eq_some_iff.mp h
    cases hstopped
    have hpassed := (steps_runTicks hticked).trans
      (ticked.steps_pass (s.simulation.clock + millis))
    exact (hpassed.trans (steps_stopUpdaters _)).trans (steps_settle _)

theorem steps_drain (s : Session) (hended : ∀ n, s.simulation.flights n = 0) :
    Steps s.instant ({ s with loop := { s.loop with
      updaters := (s.loop.updaters.drain s.time).2
      finished := s.loop.finished ++ (s.loop.updaters.drain s.time).1 } } : Session).instant :=
  .single (.drain s.loop s.time hended)

/-- If no updater is under way at the start, the pool tracks the updaters when the loop has run for a
time. -/
theorem exclusive_runFor {now millis : Nat} (hstart : Initial s.instant)
    (h : s.runFor now millis = some s') : Exclusive s'.instant :=
  Reachable.exclusive ⟨s.instant, hstart, steps_runFor h⟩

/-- Waiting for the updaters passes from instant to instant, if it lasts until all have ended. -/
theorem steps_awaitUpdaters (s : Session)
    (hended : ∀ n, s.simulation.runAll.takeEnds.2.flights n = 0) :
    Steps s.instant s.awaitUpdaters.2.instant := by
  have hran : Steps s.instant ⟨.resting s.loop, s.simulation.runAll⟩ :=
    steps_runJobs (.resting s.loop) _ _ _ s.simulation
  have hnoted := hran.trans (steps_takeEnds { s with simulation := s.simulation.runAll })
  exact (hnoted.trans (steps_drain _ hended)).trans (steps_settle _)

end Session

end ClusterScaler
