import ClusterScaler.Proofs.Tick.Begin
import ClusterScaler.Proofs.Tick.Frame
import ClusterScaler.Proofs.Tick.Midway
import ClusterScaler.Proofs.Tick.Success

/-!
# The breaker as a gate

Nothing but an operator's reset closes a breaker that has tripped. So the gate of a tick shuts at
most once: a protocol that follows the breaker through a tick permits a launch only while it has
not tripped, and expects a tripped breaker to stay so.
-/

set_option autoImplicit false

namespace ClusterScaler

open Program TickM

namespace Breaker

variable {b : Breaker}

theorem tripped_recordFailure (tick : Nat) (h : b.tripped = true) :
    (b.recordFailure tick).1.tripped = true := by
  unfold recordFailure
  simp [advance, h]

theorem tripped_recordSuccess : b.recordSuccess.tripped = b.tripped := by
  unfold recordSuccess
  split <;> rfl

end Breaker

namespace ControlLoop

variable {l : ControlLoop}

theorem tripped_countFailure (s : TickSummary) (h : l.breaker.tripped = true) :
    (countFailure (s, l)).2.breaker.tripped = true :=
  Breaker.tripped_recordFailure l.ticks h

theorem tripped_mergeLaunch (s : TickSummary) (ended : LaunchEnd)
    (h : l.breaker.tripped = true) : (mergeLaunch (s, l) ended).2.breaker.tripped = true := by
  cases ended with
  | panicked => exact tripped_countFailure s h
  | reported report =>
    have hlaunched : (countLaunched report.launched (s, l)).2.breaker.tripped = true := by
      unfold countLaunched
      dsimp only
      split
      · exact h
      · exact Breaker.tripped_recordSuccess.trans h
    unfold mergeLaunch
    dsimp only
    split
    · exact tripped_countFailure _ hlaunched
    · exact hlaunched

/-- Of the commands only a reset closes a breaker. -/
theorem tripped_obey (files : FileStore) {c : ControlCommand} (hc : c ≠ .resetBreaker)
    (h : l.breaker.tripped = true) : (l.obey files c).breaker.tripped = true := by
  rcases obey_cases files l c with heq | ⟨hreset, -⟩ | ⟨_, _, -, -, -, heq⟩
  · rw [heq]
    exact h
  · exact absurd hreset hc
  · rw [heq]
    exact h

/-- A tick begins with a tripped breaker if it finds one and no reset waits. -/
theorem tripped_beginTick (files : FileStore) (hreset : .resetBreaker ∉ l.commands)
    (h : l.breaker.tripped = true) : (l.beginTick files).breaker.tripped = true := by
  refine l.beginTick_induct files (motive := fun l' => l'.breaker.tripped = true) h ?_
  intro l' h' c hc
  exact tripped_obey files (fun heq => hreset (heq ▸ hc)) h'

end ControlLoop

/-- Whether a question asks for new nodes, by a launch order or outright. -/
def Question.launches : Question → Bool
  | .launch _ => true
  | .request r => r.createsNodes
  | .dispatch _ | .abandon _ | .awaitLaunch => false

/-- The gate of a tick: what is followed is whether the breaker has tripped. New nodes are asked for
only while it has not, and only by a tick that has come to its launches. -/
def gate (launching : Bool) : Protocol TickAsk TickAsk.Reply Bool where
  permits tripped a :=
    (tripped = true → a.loop.breaker.tripped = true) ∧
      (a.question.launches = true → launching = true ∧ a.loop.breaker.tripped = false)
  follows _ a _ tripped' := tripped' = a.loop.breaker.tripped

namespace Tick

/-- The breaker of the loop has tripped if it had before. -/
def StaysTripped (l : ControlLoop) (tripped : Bool) : Prop :=
  tripped = true → l.breaker.tripped = true

variable {launching : Bool} {l : ControlLoop} {tripped : Bool}

/-- A question that asks for no nodes may be asked at any time. -/
theorem kept_gate {q : Question} (hq : q.launches = false) :
    q.Kept (gate launching) StaysTripped := by
  intro l tripped h
  refine ⟨⟨h, fun hlaunches => absurd (hlaunches.symm.trans hq) (by decide)⟩, ?_⟩
  rintro r tripped' htripped htrue
  have hsame : (l.hear q r).breaker = l.breaker := by cases q <;> rfl
  rw [hsame]
  exact htripped.symm.trans htrue

theorem looksKept_gate : LooksKept (gate launching) StaysTripped := by
  intro r hr
  apply kept_gate
  cases r <;> first | rfl | cases hr

theorem toLaunches_gate (files : FileStore) (now : Nat) (time : Duration)
    (h : StaysTripped (l.beginTick files) tripped) :
    (toLaunches files now time).Meets (gate launching) (fun _ l' t => StaysTripped l' t)
      l tripped := by
  refine frame_toLaunches looksKept_gate (fun _ => kept_gate rfl) (fun _ _ _ h => h)
    (fun _ _ _ h => h) (fun _ _ _ h => h)
    (fun l s sum h ht => ControlLoop.tripped_countFailure sum (h ht)) ?_ ?_
  · exact ⟨h, fun hlaunches => nomatch hlaunches⟩
  · rintro r tripped' htripped htrue
    obtain ⟨_, _, _, _, hbegun⟩ := l.begun_eq files now time
    rw [hbegun]
    exact htripped.symm.trans htrue

theorem fromLaunches_gate (now : Nat) (time : Duration) (m : Midway)
    (h : StaysTripped l tripped) :
    (fromLaunches now time m).Meets (gate true) (fun _ l' t => StaysTripped l' t) l tripped := by
  unfold fromLaunches
  rw [TickM.meets_bind]
  refine (frame_launchUnlessTripped ?_ (kept_gate rfl)
    (fun l s sum ended h ht => ControlLoop.tripped_mergeLaunch sum ended (h ht)) m.summary h).mono ?_
  · intro huntripped o _ tripped h
    refine ⟨⟨h, fun _ => ⟨rfl, huntripped⟩⟩, ?_⟩
    rintro r tripped' htripped htrue
    exact htripped.symm.trans htrue
  intro sum l' tripped' h'
  rw [TickM.meets_bind]
  refine (frame_dispatchAll looksKept_gate ?_ time _ none sum h').mono ?_
  · intro n _ _ _ nodeType hashes _ _ l s time head updaters h _
    exact kept_gate rfl _ s h
  intro sum' l'' tripped'' h''
  exact h''

end Tick

end ClusterScaler
