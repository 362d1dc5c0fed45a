import ClusterScaler.Simulation.Faults

/-!
# Programs on a clock

A program runs against a world whose clock stands still while anything can go on. It goes on until
it ends, breaks down, or waits for an answer that is due at a later time. The clock counts
milliseconds.
-/

set_option autoImplicit false

namespace ClusterScaler

/-- A world at a time, with the faults that its calls will meet. -/
structure Scene where
  world : World
  faults : Faults := []
  clock : Nat := 0

/-- What becomes of a request when it is made. -/
inductive Arrival (r : Request) where
  | answered (reply : r.Reply)
  /-- The answer is due at a later time. -/
  | later (due : Nat)
  /-- The caller breaks down. -/
  | panicked

/-- A program that waits for an answer. -/
structure Waiting (α : Type) where
  due : Nat
  request : Request
  next : request.Reply → Routine α

/-- A program that does not go on by itself. -/
inductive Moment (α : Type) where
  | ended (a : α)
  | panicked
  | waiting (w : Waiting α)

namespace Scene

/-- Make a request that reaches the world; a fault may tamper with its answer. -/
def reach (s : Scene) (r : Request) (fault : Fault) : Arrival r × Scene :=
  let world := s.world.enter r
  let delay := (world.latency r).timerMillis
  if delay = 0 then
    let (reply, world) := world.answer r
    (.answered (fault.tamper r reply), { s with world })
  else (.later (s.clock + delay), { s with world })

/-- Make a request. Where the call is scripted, the next fault of its method strikes first. -/
def make (s : Scene) (scripted : Bool) (r : Request) : Arrival r × Scene :=
  let (fault, faults) := if scripted then s.faults.next r else (none, s.faults)
  let s := { s with faults }
  match fault with
  | none => s.reach r .pass
  | some .panic => (.panicked, s)
  | some (.error e) =>
    match r.failed? e with
    | some reply => (.answered reply, s)
    | none => s.reach r .pass
  | some fault => s.reach r fault

/-- The answer to a request that is due. -/
def answer (s : Scene) (r : Request) : r.Reply × Scene :=
  let (reply, world) := s.world.answer r
  (reply, { s with world })

/-- Give a waiting request up. -/
def leave (s : Scene) (r : Request) : Scene := { s with world := s.world.leave r }

variable {α : Type}

/-- Let a program go on as far as it can. -/
def proceed (scripted : Bool) : Routine α → Scene → Moment α × Scene
  | .done a, s => (.ended a, s)
  | .ask r next, s =>
    match s.make scripted r with
    | (.answered reply, s) => proceed scripted (next reply) s
    | (.later due, s) => (.waiting ⟨due, r, next⟩, s)
    | (.panicked, s) => (.panicked, s)

/-- Let a waiting program go on with its answer. -/
def resume (scripted : Bool) (w : Waiting α) (s : Scene) : Moment α × Scene :=
  let (reply, s) := s.answer w.request
  proceed scripted (w.next reply) s

end Scene

end ClusterScaler
