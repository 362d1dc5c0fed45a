import ClusterScaler.Proofs.Exclusion.Pool
import ClusterScaler.Proofs.Tick.Plan
import ClusterScaler.Proofs.Tick.Steps

/-!
# A tick keeps terminations and updaters apart

A watch follows a tick: it counts the updaters under way and remembers what the tick asked. It
permits a termination only of nodes that have no updater under way and were sent none by this
tick, and an updater only for a node that has none and that this tick did not ask to terminate.
The top statement is `tick_meets_watch`: every tick that starts from a pool that tracks the
updaters keeps to this, and its pool tracks them to the end.
-/

set_option autoImplicit false

namespace ClusterScaler

/-- The nodes that a question asks to terminate. -/
def Question.terminated : Question → List NodeId
  | .request (.terminateNodes nodes) => nodes
  | .request (.terminateNode node) => [node]
  | _ => []

/-- The node to which a question sends an updater. -/
def Question.dispatched? : Question → Option NodeId
  | .dispatch u => some u.request.node
  | _ => none

/-- How the updaters under way change with a question and its answer. -/
def Question.Moves : (q : Question) → q.Reply → Flights → Flights → Prop
  | .request _, d, f, f' => ∀ n, f' n + Flights.ends d.ended n = f n
  | .awaitLaunch, d, f, f' => ∀ n, f' n + Flights.ends d.ended n = f n
  | .dispatch u, _, f, f' => f' = f.start u.request.node
  | .abandon nodes, _, f, f' => f' = f.stop nodes
  | .launch _, _, f, f' => f' = f

/-- What is watched during a tick: the updaters under way, and what the tick has asked so far. -/
structure Watch where
  flights : Flights
  asked : List Question

namespace Watch

/-- The nodes that the tick has asked to terminate. -/
def terminated (w : Watch) : List NodeId := w.asked.flatMap Question.terminated

/-- The nodes to which the tick has sent updaters. -/
def dispatched (w : Watch) : List NodeId := w.asked.filterMap Question.dispatched?

/-- No node that the tick has asked to terminate was sent an updater by it. -/
def Apart (w : Watch) : Prop := ∀ n ∈ w.terminated, n ∉ w.dispatched

/-- The exclusion of terminations and updaters, as a protocol. -/
def protocol : Protocol TickAsk TickAsk.Reply Watch where
  permits w a :=
    a.loop.updaters.Tracks w.flights ∧
      (∀ n ∈ a.question.terminated, w.flights n = 0 ∧ n ∉ w.dispatched) ∧
      (∀ u, a.question = .dispatch u →
        w.flights u.request.node = 0 ∧ u.request.node ∉ w.terminated ∧
          ∃ slot, a.loop.updaters.slots.get? u.request.node = some slot ∧ slot.ended = none)
  follows w a r w' := a.question.Moves r w.flights w'.flights ∧ w'.asked = w.asked ++ [a.question]

/-- Before a tick sends out updaters: it has asked to terminate doomed nodes only, and no doomed
node has an updater in flight. -/
structure Sparing (doomed : List NodeId) (l : ControlLoop) (w : Watch) : Prop where
  tracks : l.updaters.Tracks w.flights
  free : ∀ n ∈ doomed, l.updaters.isUpdating n = false
  asked : ∀ n ∈ w.terminated, n ∈ doomed
  quiet : w.dispatched = []

/-- While a tick sends out updaters: it has asked to terminate doomed nodes only. -/
structure Sending (doomed : List NodeId) (l : ControlLoop) (w : Watch) : Prop where
  tracks : l.updaters.Tracks w.flights
  asked : ∀ n ∈ w.terminated, n ∈ doomed

variable {doomed : List NodeId} {l : ControlLoop} {w : Watch}

theorem Sparing.sending (h : Sparing doomed l w) : Sending doomed l w := ⟨h.tracks, h.asked⟩

theorem Sparing.congr {l' : ControlLoop} (h : Sparing doomed l w)
    (hpool : l'.updaters = l.updaters) : Sparing doomed l' w := by
  refine ⟨?_, ?_, h.asked, h.quiet⟩
  · rw [hpool]
    exact h.tracks
  · rw [hpool]
    exact h.free

theorem mem_terminated_append {w w' : Watch} {q : Question} {n : NodeId}
    (h : w'.asked = w.asked ++ [q]) :
    n ∈ w'.terminated ↔ n ∈ w.terminated ∨ n ∈ q.terminated := by
  unfold terminated
  rw [h, List.flatMap_append, List.mem_append]
  simp

theorem dispatched_append {w w' : Watch} {q : Question} (h : w'.asked = w.asked ++ [q]) :
    w'.dispatched = w.dispatched ++ q.dispatched?.toList := by
  unfold dispatched
  rw [h, List.filterMap_append]
  cases hq : q.dispatched? with
  | none => simp [hq]
  | some n => simp [hq]

/-- A permitted question keeps terminations and updaters apart. -/
theorem Apart.ask {w w' : Watch} {a : TickAsk} (h : w.Apart) (hpermits : protocol.permits w a)
    (hasked : w'.asked = w.asked ++ [a.question]) : w'.Apart := by
  obtain ⟨-, hterminated, hdispatched⟩ := hpermits
  intro n hn hsent
  rw [dispatched_append hasked, List.mem_append] at hsent
  -- a question that sends an updater terminates nothing
  rcases hsent with hsent | hsent
  · rcases (mem_terminated_append hasked).mp hn with hold | hnew
    · exact h n hold hsent
    · exact (hterminated n hnew).2 hsent
  · obtain ⟨loop, question⟩ := a
    cases question with
    | dispatch u =>
      have hu : n = u.request.node := by simpa [Question.dispatched?] using hsent
      rw [hu] at hn
      rcases (mem_terminated_append hasked).mp hn with hold | hnew
      · exact (hdispatched u rfl).2.1 hold
      · cases hnew
    | request r => cases hsent
    | abandon nodes => cases hsent
    | launch order => cases hsent
    | awaitLaunch => cases hsent

/-- A request that terminates doomed nodes at most is permitted as long as no updater was sent
out. -/
theorem Sparing.request (h : Sparing doomed l w) {r : Request}
    (hr : ∀ n ∈ (Question.request r).terminated, n ∈ doomed) :
    (TickM.request r).Meets protocol (fun _ l' w' => Sparing doomed l' w') l w := by
  rw [TickM.meets_request]
  refine ⟨⟨h.tracks, ?_, ?_⟩, ?_⟩
  · intro n hn
    refine ⟨h.tracks.eq_zero (h.free n (hr n hn)), ?_⟩
    rw [h.quiet]
    exact List.not_mem_nil
  · intro u hu
    cases hu
  · rintro d w' ⟨hmoves, hasked⟩
    refine ⟨h.tracks.completeAll hmoves, ?_, ?_, ?_⟩
    · intro n hn
      have hsame : (l.complete d.ended).updaters.isUpdating n = l.updaters.isUpdating n :=
        UpdaterPool.isUpdating_completeAll
      rw [hsame]
      exact h.free n hn
    · intro n hn
      rcases (mem_terminated_append hasked).mp hn with hold | hnew
      · exact h.asked n hold
      · exact hr n hnew
    · rw [dispatched_append hasked, h.quiet]
      rfl

/-- A request that terminates nothing is always permitted. -/
theorem Sending.request (h : Sending doomed l w) {r : Request}
    (hr : (Question.request r).terminated = []) :
    (TickM.request r).Meets protocol (fun _ l' w' => Sending doomed l' w') l w := by
  rw [TickM.meets_request]
  refine ⟨⟨h.tracks, ?_, ?_⟩, ?_⟩
  · intro n hn
    rw [hr] at hn
    cases hn
  · intro u hu
    cases hu
  · rintro d w' ⟨hmoves, hasked⟩
    refine ⟨h.tracks.completeAll hmoves, ?_⟩
    intro n hn
    rcases (mem_terminated_append hasked).mp hn with hold | hnew
    · exact h.asked n hold
    · rw [hr] at hnew
      cases hnew

/-- Repeating a permitted call is permitted. -/
theorem Sparing.retrying {α : Type} {call : TickM (ProviderResult α)}
    (hcall : ∀ l w, Sparing doomed l w →
      call.Meets protocol (fun _ l' w' => Sparing doomed l' w') l w)
    (h : Sparing doomed l w) :
    (TickM.retrying call).Meets protocol (fun _ l' w' => Sparing doomed l' w') l w := by
  refine TickM.meets_retrying (fun l w hinv => ?_) (fun d l w hinv => ?_) h
  · exact (hcall l w hinv).mono (fun _ _ _ hr => ⟨hr, fun _ => hr⟩)
  · exact hinv.request (fun n hn => absurd hn List.not_mem_nil)

theorem Sending.retrying {α : Type} {call : TickM (ProviderResult α)}
    (hcall : ∀ l w, Sending doomed l w →
      call.Meets protocol (fun _ l' w' => Sending doomed l' w') l w)
    (h : Sending doomed l w) :
    (TickM.retrying call).Meets protocol (fun _ l' w' => Sending doomed l' w') l w := by
  refine TickM.meets_retrying (fun l w hinv => ?_) (fun d l w hinv => ?_) h
  · exact (hcall l w hinv).mono (fun _ _ _ hr => ⟨hr, fun _ => hr⟩)
  · exact hinv.request rfl

end Watch

end ClusterScaler
