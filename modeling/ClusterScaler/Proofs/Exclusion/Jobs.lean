import ClusterScaler.Proofs.Exclusion.Pool
import ClusterScaler.Simulation.Session

/-!
# The updaters among the jobs

The updaters under way in a simulation are its updater jobs and the ends that nobody has taken
note of yet. A step of a job neither starts nor loses an updater: it goes on, or leaves its end.
-/

set_option autoImplicit false

namespace ClusterScaler

/-- The node whose updater a step of a job leaves under way or ends. -/
def WorkStep.updaterOf? : WorkStep → Option NodeId
  | .still work => work.updaterOf?
  | .updater node _ => some node
  | .launch _ => none

namespace Work

theorem updaterOf?_afterConclude (u : Update) (m : Moment UpdateResult) :
    (afterConclude u m).updaterOf? = some u.request.node := by
  cases m with
  | ended result => rfl
  | panicked => rfl
  | waiting w => rfl

theorem updaterOf?_conclude (u : Update) (result : UpdateResult) (s : Scene) :
    (conclude u result s).1.updaterOf? = some u.request.node :=
  updaterOf?_afterConclude u _

theorem updaterOf?_afterApply (u : Update) (deadline : Nat) (m : Moment UpdateResult)
    (s : Scene) : (afterApply u deadline m s).1.updaterOf? = some u.request.node := by
  cases m with
  | ended result => exact updaterOf?_conclude u result s
  | panicked => rfl
  | waiting w =>
    unfold afterApply
    dsimp only
    split
    · exact updaterOf?_conclude u _ _
    · rfl

theorem updaterOf?_afterLaunch (o : LaunchOrder) (m : Moment LaunchReport) :
    (afterLaunch o m).updaterOf? = none := by
  cases m with
  | ended report => rfl
  | panicked => rfl
  | waiting w => rfl

theorem updaterOf?_step (work : Work) (s : Scene) :
    (work.step s).1.updaterOf? = work.updaterOf? := by
  cases work with
  | startUpdate u => exact updaterOf?_afterApply u _ _ _
  | applying u deadline w =>
    unfold step
    dsimp only
    split
    · exact updaterOf?_afterApply u deadline _ _
    · exact updaterOf?_conclude u _ _
  | concluding u w => exact updaterOf?_afterConclude u _
  | startLaunch o => exact updaterOf?_afterLaunch o _
  | launching o w => exact updaterOf?_afterLaunch o _

end Work

namespace Simulation

/-- How many updaters of each node are jobs. -/
def updaterJobs (s : Simulation) : Flights :=
  fun n => s.jobs.countP (fun j => j.work.updaterOf? = some n)

/-- How many updaters of each node are under way: those that are jobs, and those whose ends nobody
has taken note of yet. -/
def flights (s : Simulation) : Flights :=
  fun n => s.updaterJobs n + s.updaterEnds.countP (fun e => e.node = n)

theorem flights_settleStep (s : Simulation) (r : WorkStep) (n : NodeId) :
    (s.settleStep r).flights n = s.flights n + (if r.updaterOf? = some n then 1 else 0) := by
  cases r with
  | still work =>
    unfold settleStep add flights updaterJobs WorkStep.updaterOf?
    simp only [List.countP_append, List.countP_singleton, decide_eq_true_eq]
    omega
  | updater node ended =>
    unfold settleStep flights updaterJobs WorkStep.updaterOf?
    simp only [List.countP_append, List.countP_singleton, decide_eq_true_eq, Option.some.injEq]
    omega
  | launch ended =>
    unfold settleStep flights updaterJobs WorkStep.updaterOf?
    simp

/-- A step of a job leaves as many updaters of each node under way as before. -/
theorem flights_runJob {s : Simulation} {job : Job} {others : List Job}
    (h : s.jobs.Perm (job :: others)) : (s.runJob job others).flights = s.flights := by
  funext n
  have hjobs : s.updaterJobs n =
      (if job.work.updaterOf? = some n then 1 else 0) +
        others.countP (fun j => j.work.updaterOf? = some n) := by
    unfold updaterJobs
    rw [h.countP_eq, List.countP_cons]
    simp only [decide_eq_true_eq]
    omega
  unfold runJob
  dsimp only
  rw [flights_settleStep, Work.updaterOf?_step]
  unfold flights
  rw [hjobs]
  unfold updaterJobs
  dsimp only
  omega

/-- Taking note of ends accounts for all of them. -/
theorem flights_takeEnds (s : Simulation) (n : NodeId) :
    s.takeEnds.2.flights n + Flights.ends s.takeEnds.1 n = s.flights n := by
  unfold takeEnds flights updaterJobs Flights.ends
  dsimp only
  rw [List.countP_map]
  simp only [List.countP_nil, Nat.add_zero]
  rfl

theorem flights_add_startUpdate (s : Simulation) (u : Update) :
    (s.add (.startUpdate u)).flights = s.flights.start u.request.node := by
  funext n
  have h := flights_settleStep s (.still (.startUpdate u)) n
  have hwork : (WorkStep.still (.startUpdate u)).updaterOf? = some u.request.node := rfl
  rw [hwork] at h
  unfold Flights.start
  change (s.settleStep (.still (.startUpdate u))).flights n = _
  rw [h]
  by_cases hn : n = u.request.node
  · simp [hn]
  · have hn' : u.request.node ≠ n := fun heq => hn heq.symm
    simp [hn, hn']

theorem flights_add_startLaunch (s : Simulation) (o : LaunchOrder) :
    (s.add (.startLaunch o)).flights = s.flights := by
  funext n
  have h := flights_settleStep s (.still (.startLaunch o)) n
  change (s.settleStep (.still (.startLaunch o))).flights n = _
  rw [h]
  rfl

theorem flights_dropLaunches (s : Simulation) : s.dropLaunches.flights = s.flights := by
  funext n
  unfold dropLaunches dropJobs flights updaterJobs
  dsimp only
  rw [List.countP_filter]
  congr 1
  apply List.countP_congr
  intro j _
  cases hj : j.work.updaterOf? with
  | none => simp
  | some m => simp

/-- Once updaters are stopped, none of their nodes has one under way, and the others are as
before. -/
theorem flights_dropUpdaters (s : Simulation) (nodes : List NodeId) :
    (s.dropUpdaters nodes).flights = s.flights.stop nodes := by
  funext n
  unfold dropUpdaters dropJobs flights updaterJobs Flights.stop
  dsimp only
  rw [List.countP_filter, List.countP_filter]
  split
  · next hmem =>
    have hjobs : s.jobs.countP (fun j => decide (j.work.updaterOf? = some n) &&
        !(j.work.updaterOf?.any fun node => nodes.contains node)) = 0 := by
      rw [List.countP_eq_zero]
      intro j _
      cases hj : j.work.updaterOf? with
      | none => simp
      | some m =>
        by_cases hm : m = n
        · simp [hm, hmem]
        · simp [hm]
    have hends : s.updaterEnds.countP (fun e => decide (e.node = n) &&
        !nodes.contains e.node) = 0 := by
      rw [List.countP_eq_zero]
      intro e _
      by_cases he : e.node = n
      · simp [he, hmem]
      · simp [he]
    rw [hjobs, hends]
  · next hnot =>
    congr 1
    · apply List.countP_congr
      intro j _
      cases hj : j.work.updaterOf? with
      | none => simp
      | some m =>
        by_cases hm : m = n
        · simp [hm, hnot]
        · simp [hm]
    · apply List.countP_congr
      intro e _
      by_cases he : e.node = n
      · simp [he, hnot]
      · simp [he]

end Simulation

end ClusterScaler
