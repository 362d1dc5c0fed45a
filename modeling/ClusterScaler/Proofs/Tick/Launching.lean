import ClusterScaler.Proofs.Tick.Midway
import ClusterScaler.Proofs.Tick.Success

/-!
# The launches of a tick

A tick only looks at nodes, terminates some before it comes to its launches, and asks for new ones
by launch orders: those for what its plan lacks, in turn. When it is done with its launches, it has
waited for all that it started.
-/

set_option autoImplicit false

namespace ClusterScaler

open Program TickM

/-- The launch orders of a tick so far. -/
structure Launching where
  started : List LaunchOrder := []
  /-- How many of them have not been waited for. -/
  underWay : Nat := 0

/-- The launch orders once a question is answered. -/
def Launching.next (s : Launching) : Question → Launching
  | .launch o => ⟨s.started ++ [o], s.underWay + 1⟩
  | .awaitLaunch => ⟨s.started, s.underWay - 1⟩
  | .request _ | .dispatch _ | .abandon _ => s

/-- What a tick may ask for, besides starting the planned orders in turn: to look at nodes, and to
terminate nodes if that is allowed. -/
def launching (planned : List LaunchOrder) (terminating : Bool) :
    Protocol TickAsk TickAsk.Reply Launching where
  permits s a := (∀ r, a.question.request? = some r →
    r.looks = true ∨ (terminating = true ∧ r.terminates = true)) ∧
      s.started ++ a.question.order?.toList <+: planned
  follows s a _ s' := s' = s.next a.question

namespace Tick

variable {planned : List LaunchOrder} {terminating : Bool} {l : ControlLoop} {s : Launching}

/-- The orders so far are planned, and so many have not been waited for. -/
def StartedOf (planned : List LaunchOrder) (underWay : Nat) (_ : ControlLoop) (s : Launching) :
    Prop :=
  s.started <+: planned ∧ s.underWay = underWay

theorem looksKept_launching (n : Nat) :
    LooksKept (launching planned terminating) (StartedOf planned n) := by
  intro r hr l s h
  refine ⟨⟨fun r' hr' => .inl (Option.some.inj hr' ▸ hr), ?_⟩, ?_⟩
  · exact (List.append_nil s.started).symm ▸ h.1
  · rintro _ _ rfl
    exact h

/-- Up to its launches, a tick starts none. -/
theorem toLaunches_launching (files : FileStore) (now : Nat) (time : Duration) (l : ControlLoop) :
    (toLaunches files now time).Meets (launching [] true) (fun _ l' s' => StartedOf [] 0 l' s')
      l {} := by
  have hnone : StartedOf [] 0 l {} := ⟨List.nil_prefix, rfl⟩
  refine frame_toLaunches (looksKept_launching 0) (fun doomed l s h => ?_) (fun _ _ _ h => h)
    (fun _ _ _ h => h) (fun _ _ _ h => h) (fun _ _ _ h => h) ?_ ?_
  · refine ⟨⟨fun r hr => .inr ⟨rfl, Option.some.inj hr ▸ rfl⟩, ?_⟩, ?_⟩
    · exact (List.append_nil s.started).symm ▸ h.1
    · rintro _ _ rfl
      exact h
  · exact ⟨fun r hr => (nomatch hr), List.nil_prefix⟩
  · rintro _ _ rfl
    exact hnone

/-- Starting orders in turn starts them in turn. -/
theorem startLaunches_launching {orders : List LaunchOrder} (h : s.started ++ orders <+: planned) :
    (startLaunches orders).Meets (launching planned terminating)
      (fun _ l' s' => l' = l ∧ s' = ⟨s.started ++ orders, s.underWay + orders.length⟩) l s := by
  induction orders generalizing s with
  | nil =>
    refine ⟨rfl, ?_⟩
    rw [List.append_nil]
    rfl
  | cons o rest ih =>
    unfold startLaunches
    rw [TickM.meets_bind]
    have hsplit : s.started ++ o :: rest = s.started ++ [o] ++ rest := by simp
    rw [hsplit] at h ⊢
    refine (meets_ask (q := .launch o)).mpr
      ⟨⟨fun r hr => (by cases hr), (List.prefix_append _ rest).trans h⟩, ?_⟩
    rintro _ _ rfl
    refine (ih (s := s.next (.launch o)) h).mono ?_
    rintro _ l' s' ⟨rfl, rfl⟩
    refine ⟨rfl, ?_⟩
    have hlength : s.underWay + (o :: rest).length = s.underWay + 1 + rest.length := by
      rw [List.length_cons]
      omega
    rw [hlength]
    rfl

/-- Waiting for so many orders leaves as many fewer. -/
theorem awaitLaunches_launching {n : Nat} (sum : TickSummary) (h : StartedOf planned n l s) :
    (awaitLaunches n sum).Meets (launching planned terminating)
      (fun _ l' s' => StartedOf planned 0 l' s') l s := by
  induction n generalizing sum l s with
  | zero => exact h
  | succ n ih =>
    unfold awaitLaunches
    rw [TickM.meets_bind]
    refine (meets_ask (q := .awaitLaunch)).mpr ⟨⟨fun r hr => (by cases hr), ?_⟩, ?_⟩
    · exact (List.append_nil s.started).symm ▸ h.1
    · rintro d _ rfl
      refine ih _ ⟨h.1, ?_⟩
      change s.underWay - 1 = n
      rw [h.2, Nat.add_sub_cancel]

theorem launchUnlessTripped_launching {deficits : List (String × Nat)} (sum : TickSummary) :
    (launchUnlessTripped deficits sum).Meets (launching (l.ordersFor deficits) terminating)
      (fun _ l' s' => StartedOf (l.ordersFor deficits) 0 l' s') l {} := by
  unfold launchUnlessTripped
  split
  · exact ⟨List.nil_prefix, rfl⟩
  · rw [TickM.meets_bind, meets_get]
    split
    · exact ⟨List.nil_prefix, rfl⟩
    · unfold launch
      rw [TickM.meets_bind, meets_get, TickM.meets_bind]
      refine (startLaunches_launching (s := {}) (List.prefix_refl (l.ordersFor deficits))).mono ?_
      rintro _ l' s' ⟨rfl, rfl⟩
      exact awaitLaunches_launching sum ⟨List.prefix_refl _, Nat.zero_add _⟩

/-- From its launches on, a tick starts what its plan lacks, and waits for all of it. -/
theorem fromLaunches_launching (now : Nat) (time : Duration) (m : Midway) (l : ControlLoop) :
    (fromLaunches now time m).Meets
      (launching (l.ordersFor (m.planner.planLaunches m.plan.remaining m.plan.targets)) false)
      (fun _ l' s' => StartedOf
        (l.ordersFor (m.planner.planLaunches m.plan.remaining m.plan.targets)) 0 l' s') l {} := by
  unfold fromLaunches
  rw [TickM.meets_bind]
  refine (launchUnlessTripped_launching m.summary).mono ?_
  intro sum l' s' h'
  rw [TickM.meets_bind]
  refine (frame_dispatchAll (looksKept_launching 0) ?_ time _ none sum h').mono
    (fun _ _ _ h'' => h'')
  intro n _ _ _ nodeType hashes _ _ l s time head updaters h _
  refine ⟨⟨fun r hr => (nomatch hr), ?_⟩, ?_⟩
  · exact (List.append_nil s.started).symm ▸ h.1
  · rintro _ _ rfl
    exact h

end Tick

end ClusterScaler
