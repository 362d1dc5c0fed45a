import ClusterScaler.Proofs.Program.Protocol
import ClusterScaler.Proofs.Retrying.Delays
import Mathlib.Data.ENat.Lattice

/-!
# The calls of a retry loop

A retry loop calls an operation and waits, and does nothing else: whatever the operation is, and in
whatever monad it lives, the loop is a program that asks for calls and waits, carried out there. So what
it does is settled by the results of the calls in turn, and `retries_in_full` gives it for every
sequence of them.
-/

set_option autoImplicit false

namespace ClusterScaler

/-- Carry a program out where someone answers its questions. -/
def Program.interpret {Op : Type} {Reply : Op → Type} {α : Type} {m : Type → Type} [Monad m]
    (answer : (op : Op) → m (Reply op)) : Program Op Reply α → m α
  | .done a => pure a
  | .ask op next => do (next (← answer op)).interpret answer

/-- What a retry loop asks for. -/
inductive RetryAsk where
  /-- The next call of the operation. -/
  | call
  | wait (d : Duration)
  deriving DecidableEq

/-- The answer is the result of the call, if one was asked for. -/
@[reducible]
def RetryAsk.Reply (α : Type) : RetryAsk → Type
  | call => ProviderResult α
  | wait _ => Unit

namespace RetryPolicy

variable {α : Type}

/-- A program that repeats calls. -/
abbrev Loop (α : Type) := Program RetryAsk (RetryAsk.Reply α) (ProviderResult α)

/-- The retry loop by itself, as a program that asks for calls and waits. -/
def loop (p : RetryPolicy) (α : Type) : Loop α :=
  p.withRetries (fun d => Program.call (RetryAsk.wait d)) (Program.call RetryAsk.call)

/-- The retry loop with so many retries left. -/
def loopOn (p : RetryPolicy) (α : Type) (left : Nat) : Loop α :=
  p.attempts (fun d => Program.call (RetryAsk.wait d)) (Program.call RetryAsk.call) left

/-- How the loop goes on with the result of a call, with so many retries left. -/
def afterCall (p : RetryPolicy) (left : Nat) : ProviderResult α → Loop α
  | .ok a => .done (.ok a)
  | .error e =>
    if e.isTransient then
      .ask (.wait (p.delayFor (p.maxRetries - left))) (fun _ => p.loopOn α left)
    else .done (.error e)

theorem loopOn_zero (p : RetryPolicy) (α : Type) : p.loopOn α 0 = .ask .call .done := rfl

theorem loopOn_succ (p : RetryPolicy) (α : Type) (left : Nat) :
    p.loopOn α (left + 1) = .ask .call (p.afterCall left) := by
  refine congrArg (Program.ask RetryAsk.call) (funext fun result => ?_)
  cases result with
  | ok a => rfl
  | error e => rfl

/-- Answer with an operation, and with something to wait. -/
def answerWith {m : Type → Type} (pause : Duration → m Unit) (operation : m (ProviderResult α)) :
    (a : RetryAsk) → m (RetryAsk.Reply α a)
  | .call => operation
  | .wait d => pause d

/-- To retry an operation is to carry the retry loop out with it. -/
theorem withRetries_eq_interpret {m : Type → Type} [Monad m] [LawfulMonad m] (p : RetryPolicy)
    (pause : Duration → m Unit) (operation : m (ProviderResult α)) :
    p.withRetries pause operation = (p.loop α).interpret (answerWith pause operation) := by
  have hattempts : ∀ left, p.attempts pause operation left =
      (p.loopOn α left).interpret (answerWith pause operation) := by
    intro left
    induction left with
    | zero => exact (bind_pure operation).symm
    | succ left ih =>
      rw [loopOn_succ]
      refine bind_congr fun result => ?_
      cases result with
      | ok a => rfl
      | error e =>
        unfold afterCall
        dsimp only
        split
        · exact bind_congr fun _ => ih
        · rfl
  exact hattempts p.maxRetries

/-- A call failed with an error that may pass. -/
def MayPass (result : ProviderResult α) : Prop := ∃ e, result = .error e ∧ e.isTransient = true

/-- How many of the results of an operation, from the first one on, are errors that may pass. -/
noncomputable def leading (results : Nat → ProviderResult α) : ENat :=
  ⨅ (k : Nat) (_ : ¬ MayPass (results k)), (k : ENat)

/-- Answer calls with these results in turn, and keep what was asked. -/
def inTurn (results : Nat → ProviderResult α) :
    (a : RetryAsk) → List RetryAsk → RetryAsk.Reply α a × List RetryAsk
  | .call, asked => (results (asked.count .call), asked ++ [.call])
  | .wait d, asked => ((), asked ++ [.wait d])

theorem run_call (results : Nat → ProviderResult α) (next : ProviderResult α → Loop α)
    (asked : List RetryAsk) :
    Program.run (inTurn results) (.ask .call next) asked =
      (next (results (asked.count .call))).run (inTurn results) (asked ++ [.call]) := rfl

theorem run_wait (results : Nat → ProviderResult α) (d : Duration) (next : Unit → Loop α)
    (asked : List RetryAsk) :
    Program.run (inTurn results) (.ask (.wait d) next) asked =
      (next ()).run (inTurn results) (asked ++ [.wait d]) := rfl

/-- A first call and so many retries, each after its pause. -/
def schedule (p : RetryPolicy) : (retries : Nat) → List RetryAsk
  | 0 => [.call]
  | n + 1 => p.schedule n ++ [.wait (p.delayFor (n + 1)), .call]

theorem count_call_schedule (p : RetryPolicy) (n : Nat) : (p.schedule n).count .call = n + 1 := by
  induction n with
  | zero => rfl
  | succ n ih =>
    unfold schedule
    rw [List.count_append, ih]
    rfl

/-- A schedule is asked for up to the last call if as many calls have been made as there are retries. -/
theorem count_call_of_append {p : RetryPolicy} {asked : List RetryAsk} {k : Nat}
    (h : asked ++ [.call] = p.schedule k) : asked.count .call = k := by
  have htotal := congrArg (List.count RetryAsk.call) h
  rw [count_call_schedule, List.count_append, List.count_singleton_self] at htotal
  exact Nat.succ.inj htotal

/-- The retries end after the first result that is no error that may pass, or when they are used
up. -/
structure EndsAfter (p : RetryPolicy) (results : Nat → ProviderResult α) (n : Nat) : Prop where
  le : n ≤ p.maxRetries
  passing : ∀ k < n, MayPass (results k)
  ends : MayPass (results n) → n = p.maxRetries

variable {p : RetryPolicy} {results : Nat → ProviderResult α}

theorem EndsAfter.eq_min {n : Nat} (h : EndsAfter p results n) :
    (n : ENat) = min (p.maxRetries : ENat) (leading results) := by
  have hleading : (n : ENat) ≤ leading results := by
    refine le_iInf₂ fun k hk => ?_
    exact Nat.cast_le.mpr (Nat.not_lt.mp fun hlt => hk (h.passing k hlt))
  refine le_antisymm (le_min (Nat.cast_le.mpr h.le) hleading) ?_
  by_cases hlast : MayPass (results n)
  · exact (min_le_left _ _).trans (Nat.cast_le.mpr (h.ends hlast).ge)
  · exact (min_le_right _ _).trans (iInf₂_le n hlast)

/-- With so many retries left, all results so far being errors that may pass, the loop goes on to where
the retries end. -/
theorem run_loopOn {left k : Nat} {asked : List RetryAsk} (hleft : k + left = p.maxRetries)
    (hasked : asked ++ [.call] = p.schedule k) (hpassing : ∀ j < k, MayPass (results j)) :
    ∃ n, EndsAfter p results n ∧
      (p.loopOn α left).run (inTurn results) asked = (results n, p.schedule n) := by
  induction left generalizing k asked with
  | zero =>
    refine ⟨k, ⟨hleft.le, hpassing, fun _ => hleft⟩, ?_⟩
    rw [loopOn_zero, run_call, hasked, count_call_of_append hasked]
    rfl
  | succ left ih =>
    rw [loopOn_succ, run_call, hasked, count_call_of_append hasked]
    by_cases hresult : MayPass (results k)
    · -- the loop waits and makes one call more
      obtain ⟨e, he, htransient⟩ := hresult
      have hretry : p.maxRetries - left = k + 1 := by omega
      have hgoes : p.afterCall left (results k) =
          .ask (.wait (p.delayFor (k + 1))) (fun _ => p.loopOn α left) := by
        rw [he, ← hretry]
        exact if_pos htransient
      rw [hgoes, run_wait]
      refine ih (k := k + 1) (by omega) ?_ ?_
      · rw [List.append_assoc]
        rfl
      · intro j hj
        rcases Nat.lt_succ_iff_lt_or_eq.mp hj with hj | rfl
        · exact hpassing j hj
        · exact ⟨e, he, htransient⟩
    · -- the loop is done
      refine ⟨k, ⟨by omega, hpassing, fun h => absurd h hresult⟩, ?_⟩
      have hdone : p.afterCall left (results k) = .done (results k) := by
        cases hr : results k with
        | ok a => rfl
        | error e => exact if_neg fun htransient => hresult ⟨e, hr, htransient⟩
      rw [hdone]
      rfl

/-- A retry loop calls its operation and waits, in whatever monad, and does nothing else. It makes one
call and one more for each error that may pass with which the operation begins, as far as the retries
go; before the retry with a number it waits for the pause with that number, and no pause is shorter
than the one before it or longer than the longest. It gives the result of the last call, and every other
call ended in an error that may pass. -/
theorem retries_in_full (p : RetryPolicy) :
    (∀ {m : Type → Type} [Monad m] [LawfulMonad m] {α : Type} (pause : Duration → m Unit)
      (operation : m (ProviderResult α)),
      p.withRetries pause operation = (p.loop α).interpret (answerWith pause operation)) ∧
    (∀ {α : Type} (results : Nat → ProviderResult α), ∃ n,
      (p.loop α).run (inTurn results) [] = (results n, p.schedule n) ∧
        ((p.schedule n).count .call : ENat) = 1 + min (p.maxRetries : ENat) (leading results) ∧
          ∀ k < n, MayPass (results k)) ∧
    (∀ k k', k ≤ k' → (p.delayFor k).nanos ≤ (p.delayFor k').nanos) ∧
      ∀ k, (p.delayFor k).nanos ≤ p.maxDelay.nanos := by
  refine ⟨fun pause operation => p.withRetries_eq_interpret pause operation, fun results => ?_,
    fun k k' h => p.delayFor_mono h, p.delayFor_le_maxDelay⟩
  have hfirst : ([] : List RetryAsk) ++ [.call] = p.schedule 0 := rfl
  have hnone : ∀ j < 0, MayPass (results j) := fun j hj => absurd hj (Nat.not_lt_zero j)
  obtain ⟨n, hends, hrun⟩ := run_loopOn (Nat.zero_add _) hfirst hnone
  refine ⟨n, hrun, ?_, hends.passing⟩
  rw [count_call_schedule, ← hends.eq_min, Nat.cast_add, Nat.cast_one, add_comm]

/-- A policy whose pauses would double past the longest one. -/
def ofThreeRetries : RetryPolicy :=
  { maxRetries := 3, baseDelay := .ofMillis 100, maxDelay := .ofMillis 150 }

/-- An operation that is refused twice and then succeeds. -/
def refusedTwice (k : Nat) : ProviderResult Nat :=
  if k < 2 then .error (.transient "throttled") else .ok 7

/-- The operation is called three times, with two pauses between the calls, and a termination is
retried under the same policy by the same loop. -/
theorem retries_in_full_refusedTwice :
    (ofThreeRetries.loop Nat).run (inTurn refusedTwice) [] =
        (.ok 7, [.call, .wait (.ofMillis 100), .call, .wait (.ofMillis 150), .call]) ∧
      (3 : ENat) = 1 + min 3 (leading refusedTwice) ∧
        (ofThreeRetries.delayFor 1).nanos ≤ (ofThreeRetries.delayFor 2).nanos ∧
          Routine.retrying ofThreeRetries (Request.make (.terminateNodes [⟨"a"⟩])) =
            (ofThreeRetries.loop Unit).interpret
              (answerWith Routine.pause (Request.make (.terminateNodes [⟨"a"⟩]))) := by
  obtain ⟨hcarried, hcalls, hmono, -⟩ := retries_in_full ofThreeRetries
  have hrun : (ofThreeRetries.loop Nat).run (inTurn refusedTwice) [] =
      (.ok 7, [.call, .wait (.ofMillis 100), .call, .wait (.ofMillis 150), .call]) := by rfl
  obtain ⟨n, hn, hcount, -⟩ := hcalls refusedTwice
  have hasked : ofThreeRetries.schedule n = _ := congrArg Prod.snd (hn.symm.trans hrun)
  rw [hasked] at hcount
  exact ⟨hrun, hcount, hmono 1 2 (by decide), hcarried _ _⟩

end RetryPolicy

end ClusterScaler
