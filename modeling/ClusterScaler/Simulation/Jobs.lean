import ClusterScaler.ControlLoop.Tick
import ClusterScaler.Simulation.Clock

/-!
# Background jobs

Updaters and launch orders run in the background. A job is due at a time, and of the jobs due at
one time the one that has waited longest goes first. An update is cut off at its deadline wherever
it stands, and is then concluded as timed out.
-/

set_option autoImplicit false

namespace ClusterScaler

/-- What a job is about to do. -/
inductive Work where
  | startUpdate (u : Update)
  /-- The update is under way and has to end by the deadline. -/
  | applying (u : Update) (deadline : Nat) (w : Waiting UpdateResult)
  /-- The result of the update is being written. -/
  | concluding (u : Update) (w : Waiting UpdateResult)
  | startLaunch (o : LaunchOrder)
  | launching (o : LaunchOrder) (w : Waiting LaunchReport)

/-- What a step of a job leads to. -/
inductive WorkStep where
  | still (work : Work)
  | updater (node : NodeId) (ended : UpdaterEnd)
  | launch (ended : LaunchEnd)

namespace Work

/-- When a job that starts or waits goes on. -/
def due (start : Nat) : Work → Nat
  | startUpdate _ | startLaunch _ => start
  | applying _ deadline w => min w.due deadline
  | concluding _ w => w.due
  | launching _ w => w.due

/-- The node whose updater a job is. -/
def updaterOf? : Work → Option NodeId
  | startUpdate u | applying u .. | concluding u _ => some u.request.node
  | startLaunch _ | launching .. => none

/-- The request that a job waits for. -/
def request? : Work → Option Request
  | startUpdate _ | startLaunch _ => none
  | applying _ _ w => some w.request
  | concluding _ w => some w.request
  | launching _ w => some w.request

/-- Go on after the concluding steps of an update. -/
def afterConclude (u : Update) : Moment UpdateResult → WorkStep
  | .ended result => .updater u.request.node (.finished result)
  | .panicked => .updater u.request.node .panicked
  | .waiting w => .still (.concluding u w)

/-- Conclude an update with its result. -/
def conclude (u : Update) (result : UpdateResult) (s : Scene) : WorkStep × Scene :=
  let (m, s) := s.proceed true (u.conclude result)
  (afterConclude u m, s)

/-- Go on after steps of an update that has to end by a deadline. -/
def afterApply (u : Update) (deadline : Nat) : Moment UpdateResult → Scene → WorkStep × Scene
  | .ended result, s => conclude u result s
  | .panicked, s => (.updater u.request.node .panicked, s)
  | .waiting w, s =>
    if deadline ≤ s.clock then conclude u (.error (.timeout u.timeout)) (s.leave w.request)
    else (.still (.applying u deadline w), s)

/-- Go on after steps of a launch order. -/
def afterLaunch (o : LaunchOrder) : Moment LaunchReport → WorkStep
  | .ended report => .launch (.reported report)
  | .panicked => .launch .panicked
  | .waiting w => .still (.launching o w)

/-- One step of a job that is due. -/
def step (work : Work) (s : Scene) : WorkStep × Scene :=
  match work with
  | startUpdate u =>
    let (m, s') := s.proceed true u.apply
    afterApply u (s.clock + u.timeout.timerMillis) m s'
  | applying u deadline w =>
    if w.due ≤ s.clock then
      let (m, s) := s.resume true w
      afterApply u deadline m s
    else conclude u (.error (.timeout u.timeout)) (s.leave w.request)
  | concluding u w =>
    let (m, s) := s.resume true w
    (afterConclude u m, s)
  | startLaunch o =>
    let (m, s) := s.proceed true o.routine
    (afterLaunch o m, s)
  | launching o w =>
    let (m, s) := s.resume true w
    (afterLaunch o m, s)

/-- The longest that the retries of one call of an update pause. -/
def retryMillis (u : Update) : Nat := u.retry.maxRetries * u.retry.maxDelay.timerMillis

/-- A time by which a job has ended. -/
def horizon (world : World) (start : Nat) : Work → Nat
  | startUpdate u => start + u.timeout.timerMillis + retryMillis u
  | applying u deadline _ => deadline + retryMillis u
  | concluding u w => w.due + retryMillis u
  | startLaunch o =>
    start + o.count * (world.latency (.createNodes o.template o.tags 0)).timerMillis
  | launching o w => w.due + o.count * (world.latency w.request).timerMillis

end Work

/-- A job in the background. -/
structure Job where
  due : Nat
  /-- Lower for jobs that have waited longer. -/
  ticket : Nat
  work : Work

/-- Whether a job goes before another. -/
def Job.precedes (a b : Job) : Bool := a.due < b.due || (a.due == b.due && a.ticket < b.ticket)

/-- The job that goes next, and the others. -/
def Job.next? : List Job → Option (Job × List Job)
  | [] => none
  | j :: rest =>
    match Job.next? rest with
    | none => some (j, [])
    | some (k, others) => if k.precedes j then some (k, j :: others) else some (j, rest)

/-- The end of an updater and its time. -/
structure UpdaterEnding where
  node : NodeId
  ended : UpdaterEnd
  time : Nat

/-- A scene with jobs in its background. -/
structure Simulation extends Scene where
  jobs : List Job := []
  /-- The ticket of the next job that starts or waits. -/
  tickets : Nat := 0
  /-- The ends of updaters that nobody has taken note of yet, in order. -/
  updaterEnds : List UpdaterEnding := []
  /-- The ends of launch orders that nobody has taken note of yet, in order. -/
  launchEnds : List LaunchEnd := []

namespace Simulation

/-- Put a job into the background. -/
def add (s : Simulation) (work : Work) : Simulation :=
  { s with
    jobs := s.jobs ++ [⟨work.due s.clock, s.tickets, work⟩]
    tickets := s.tickets + 1 }

/-- Take note of what a step of a job led to. -/
def settleStep (s : Simulation) : WorkStep → Simulation
  | .still work => s.add work
  | .updater node ended =>
    { s with updaterEnds := s.updaterEnds ++ [⟨node, ended, s.clock⟩] }
  | .launch ended => { s with launchEnds := s.launchEnds ++ [ended] }

/-- Let a job that was taken out of the background take its step at its time. -/
def runJob (s : Simulation) (job : Job) (others : List Job) : Simulation :=
  let scene := { s.toScene with clock := max s.clock job.due }
  let (result, scene) := job.work.step scene
  settleStep { s with toScene := scene, jobs := others } result

/-- Run the jobs that are due before a time, until `stop` holds. `fuel` bounds the steps. -/
def runJobs (stop : Simulation → Bool) (limit : Nat) : (fuel : Nat) → Simulation → Simulation
  | 0, s => s
  | fuel + 1, s =>
    if stop s then s
    else
      match Job.next? s.jobs with
      | none => s
      | some (job, others) =>
        if job.due < limit then runJobs stop limit fuel (s.runJob job others) else s

/-- The steps that jobs can take before a time: each step of a job is later than the one before. -/
def stepsBefore (s : Simulation) (limit : Nat) : Nat :=
  s.jobs.foldl (fun n j => n + (limit - j.due)) 0

/-- Run the jobs that are due before a time. -/
def runBefore (s : Simulation) (limit : Nat) : Simulation :=
  runJobs (fun _ => false) limit (s.stepsBefore limit) s

/-- Let time pass up to a moment, which itself has not passed for the background yet. -/
def passTo (s : Simulation) (time : Nat) : Simulation :=
  let s := s.runBefore time
  { s with clock := max s.clock time }

/-- Let the background go on as far as it can at this moment. -/
def settle (s : Simulation) : Simulation := s.runBefore (s.clock + 1)

/-- A time by which all jobs have ended. -/
def horizon (s : Simulation) : Nat :=
  (s.jobs.map (fun j => j.work.horizon s.world j.due)).foldl max s.clock

/-- Run all jobs to their ends. -/
def runAll (s : Simulation) : Simulation := s.runBefore (s.horizon + 1)

/-- Drop the jobs for which `p` holds; what they wait for is given up. -/
def dropJobs (s : Simulation) (p : Work → Bool) : Simulation :=
  let dropped := s.jobs.filter (fun j => p j.work)
  let scene := (dropped.filterMap (·.work.request?)).foldl Scene.leave s.toScene
  { s with toScene := scene, jobs := s.jobs.filter (fun j => !p j.work) }

/-- Stop the updaters of nodes. -/
def dropUpdaters (s : Simulation) (nodes : List NodeId) : Simulation :=
  let stopped (node : NodeId) : Bool := nodes.contains node
  let s := s.dropJobs (fun w => w.updaterOf?.any stopped)
  { s with updaterEnds := s.updaterEnds.filter (fun e => !stopped e.node) }

/-- Stop all launch orders. -/
def dropLaunches (s : Simulation) : Simulation :=
  { s.dropJobs (·.updaterOf?.isNone) with launchEnds := [] }

/-- Take out the ends of updaters. -/
def takeEnds (s : Simulation) : List (NodeId × UpdaterEnd) × Simulation :=
  (s.updaterEnds.map (fun e => (e.node, e.ended)), { s with updaterEnds := [] })

/-- Run a program in the foreground; nothing if it breaks down. -/
def foreground {α : Type} (scripted : Bool) : Routine α → Simulation → Option α × Simulation
  | .done a, s => (some a, s)
  | .ask r next, s =>
    match s.make scripted r with
    | (.answered reply, scene) => foreground scripted (next reply) { s with toScene := scene }
    | (.panicked, scene) => (none, { s with toScene := scene })
    | (.later due, scene) =>
      let s := { s with toScene := scene }.passTo due
      let (reply, scene) := s.toScene.answer r
      foreground scripted (next reply) { s with toScene := scene }

end Simulation

end ClusterScaler
