import ClusterScaler.Simulation.Jobs

/-!
# Sessions

A control loop that runs on the clock of a simulation: single ticks, ticks in an interval with a
deadline each, and the updaters that they send out.
-/

set_option autoImplicit false

namespace ClusterScaler

/-- How a tick came to its end. -/
inductive TickEnd (α : Type) where
  | ended (a : α)
  /-- It was cut short, and this remains of the loop. -/
  | cut (l : ControlLoop)
  /-- It broke down. -/
  | panicked

namespace Simulation

variable {α : Type}

/-- An answer together with the ends of updaters that nobody has taken note of yet. -/
def deliver {β : Type} (s : Simulation) (answer : β) : Delivered β × Simulation :=
  let (ended, s) := s.takeEnds
  (⟨answer, ended⟩, s)

/-- Cut a tick short at its deadline. -/
def cutShort (s : Simulation) (deadline : Nat) (l : ControlLoop) : TickEnd α × Simulation :=
  (.cut l, (s.passTo deadline).dropLaunches)

/-- Run the background until a launch order has ended, and then as far as it can at that moment.
Nothing is done at a deadline or later. -/
def awaitLaunch (s : Simulation) (deadline : Option Nat) : Simulation :=
  let limit := deadline.getD (s.horizon + 1)
  let s := runJobs (fun s => !s.launchEnds.isEmpty) limit (s.stepsBefore limit) s
  if s.launchEnds.isEmpty then s else s.runBefore (min limit (s.clock + 1))

/-- Run a tick in the foreground, up to its deadline if it has one. -/
def runTick (deadline : Option Nat) :
    Program TickAsk TickAsk.Reply α → Simulation → TickEnd α × Simulation
  | .done a, s => (.ended a, s)
  | .ask ⟨l, .request r⟩ next, s =>
    match s.make true r with
    | (.panicked, scene) => (.panicked, { s with toScene := scene })
    | (.answered reply, scene) =>
      let (delivered, s) := { s with toScene := scene }.deliver reply
      runTick deadline (next delivered) s
    | (.later due, scene) =>
      let s := { s with toScene := scene }
      match deadline with
      | some d =>
        if d < due then
          let (ended, s) := s.cutShort d l
          (ended, { s with toScene := s.leave r })
        else
          let s := s.passTo due
          let (reply, scene) := s.answer r
          let (delivered, s) := { s with toScene := scene }.deliver reply
          runTick deadline (next delivered) s
      | none =>
        let s := s.passTo due
        let (reply, scene) := s.answer r
        let (delivered, s) := { s with toScene := scene }.deliver reply
        runTick deadline (next delivered) s
  | .ask ⟨l, .dispatch u⟩ next, s =>
    if l.updaters.outlasts u then (.panicked, s)
    else runTick deadline (next ()) (s.add (.startUpdate u))
  | .ask ⟨_, .abandon nodes⟩ next, s => runTick deadline (next ()) (s.dropUpdaters nodes)
  | .ask ⟨_, .launch order⟩ next, s => runTick deadline (next ()) (s.add (.startLaunch order))
  | .ask ⟨l, .awaitLaunch⟩ next, s =>
    let s := s.awaitLaunch deadline
    match s.launchEnds with
    | ended :: rest =>
      let (delivered, s) := { s with launchEnds := rest }.deliver ended
      runTick deadline (next delivered) s
    | [] =>
      match deadline with
      | some d => s.cutShort d l
      | none => (.panicked, s)

end Simulation

/-- A control loop on a clock. -/
structure Session where
  simulation : Simulation
  loop : ControlLoop
  /-- The time of the updater pool, which passes apart from the clock. -/
  time : Duration := ⟨0⟩

namespace Session

/-- Take note of the ends of updaters. -/
def takeEnds (s : Session) : Session :=
  let (ended, simulation) := s.simulation.takeEnds
  { s with simulation, loop := s.loop.complete ended }

/-- Let the background go on as far as it can at this moment. -/
def settle (s : Session) : Session := { s with simulation := s.simulation.settle }.takeEnds

/-- Let time pass. -/
def sleep (s : Session) (millis : Nat) : Session :=
  { s with simulation := s.simulation.passTo (s.simulation.clock + millis) }.takeEnds.settle

/-- The result of a tick and the session after it; nothing if the tick broke down. -/
def tickUntil (s : Session) (deadline : Option Nat) (now : Nat) :
    Option (Except LoopError TickSummary × Session) :=
  let program := (tick s.simulation.world.files now s.time).run s.loop
  match s.simulation.runTick deadline program with
  | (.ended (result, loop), simulation) => some (result, { s with simulation, loop }.takeEnds)
  | (.cut loop, simulation) =>
    some (.error (.deadline loop.config.tunables.tickDeadline),
      { s with simulation, loop }.takeEnds)
  | (.panicked, _) => none

/-- One tick without a deadline. -/
def tick (s : Session) (now : Nat) : Option (Except LoopError TickSummary × Session) :=
  (s.tickUntil none now).map (fun (result, s) => (result, s.settle))

/-- One tick of the running loop, which has to end by the configured deadline. Its error is
published. -/
def boundedTick (s : Session) (now : Nat) : Option Session := do
  let t := s.loop.config.tunables
  let deadline := s.simulation.clock + t.tickDeadlineDuration.timerMillis
  let (result, s) ← s.tickUntil (some deadline) now
  match result with
  | .ok _ => return s
  | .error (.deadline _) =>
    return { s with loop := s.loop.publishError (.deadline t.tickDeadline) }
  | .error e => return { s with loop := s.loop.publishError e }

/-- How late a tick may start without a later one being moved. -/
def tolerance : Nat := 5

/-- When the tick after one that was due at a time and has started now is due. Ticks that were
missed are left out. -/
def nextTick (due now period : Nat) : Nat :=
  if now ≤ due + tolerance then due + period else now + period - (now - due) % period

/-- Tick in the configured interval before a time, `fuel` ticks at most. A new interval starts with
a tick at once. -/
def runTicks (now stop : Nat) : (fuel due : Nat) → Session → Option Session
  | 0, _, s => some s
  | fuel + 1, due, s =>
    if stop ≤ max due s.simulation.clock then some s
    else do
      let s := { s with simulation := s.simulation.passTo due }.takeEnds
      let period := s.loop.config.tunables.updateIntervalDuration
      let start := s.simulation.clock
      let s ← s.boundedTick now
      let configured := s.loop.config.tunables.updateIntervalDuration
      if configured = period then
        runTicks now stop fuel (nextTick due start period.timerMillis) s
      else if configured.nanos = 0 then none
      else runTicks now stop fuel s.simulation.clock s

/-- Stop all updaters. -/
def stopUpdaters (s : Session) : Session :=
  let nodes := s.loop.updaters.slots.keys
  { s with
    simulation := s.simulation.dropUpdaters nodes
    loop := { s.loop with updaters := s.loop.updaters.abortAll } }

/-- Run the loop for a time, then stop it. Nothing if it breaks down, as it does with an interval of
zero. -/
def runFor (s : Session) (now millis : Nat) : Option Session :=
  if s.loop.config.tunables.updateInterval = 0 then none
  else do
    let stop := s.simulation.clock + millis
    let s ← s.runTicks now stop (millis + 1) s.simulation.clock
    let s := { s with simulation := s.simulation.passTo stop }.takeEnds
    return s.stopUpdaters.settle

/-- Wait for all updaters, and tell how many there were. -/
def awaitUpdaters (s : Session) : Nat × Session :=
  let s := { s with simulation := s.simulation.runAll }.takeEnds
  let (outcomes, updaters) := s.loop.updaters.drain s.time
  (outcomes.length,
    { s with loop := { s.loop with updaters, finished := s.loop.finished ++ outcomes } }.settle)

end Session

end ClusterScaler
