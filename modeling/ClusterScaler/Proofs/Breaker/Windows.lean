import ClusterScaler.Proofs.Breaker.Gate
import Mathlib.Algebra.Group.Nat.Defs

/-!
# The window of a breaker

A breaker forgets failures at the front of its list only, and for good. Its history, all that it has
been told, says what it should hold: the failures since the last clear that are inside the window.
The ticks of a history never decrease, so the list is sorted and to drop its front is to drop all that
has left the window. `shows_history` says what a breaker shows in terms of its history alone.
-/

set_option autoImplicit false

namespace ClusterScaler

namespace Breaker

/-- What a breaker is told. -/
inductive Event where
  | advance (tick : Nat)
  | failure (tick : Nat)
  | success
  | reset

namespace Event

/-- The tick that an event names. -/
def tick? : Event → Option Nat
  | advance tick | failure tick => some tick
  | success | reset => none

/-- Whether an event is a failure. -/
def isFailure : Event → Bool
  | failure _ => true
  | advance _ | success | reset => false

/-- Whether an event is an operator's reset. -/
def isReset : Event → Bool
  | reset => true
  | advance _ | failure _ | success => false

end Event

/-- The breaker once it has been told of an event. -/
def hear (b : Breaker) : Event → Breaker
  | .advance tick => b.advance tick
  | .failure tick => (b.recordFailure tick).1
  | .success => b.recordSuccess
  | .reset => b.reset

/-- All that a breaker has been told, the latest event first. -/
abbrev History := List Event

/-- The ticks that a history names. -/
def ticks (h : History) : List Nat := h.filterMap Event.tick?

/-- The tick that a history has come to, zero before it names any. -/
def latest (h : History) : Nat := (ticks h).headD 0

/-- The ticks of a history are positive and never decrease. -/
def Ordered (h : History) : Prop := (ticks h).Pairwise (· ≥ ·) ∧ ∀ t ∈ ticks h, 1 ≤ t

instance (h : History) : Decidable (Ordered h) := inferInstanceAs (Decidable (_ ∧ _))

section History

variable (limit window : Nat)

/-- A breaker with these limits after a history. -/
def after : History → Breaker
  | [] => new limit window
  | e :: before => (after before).hear e

/-- The ticks of the failures since the last clear. A reset clears, and so does a success unless the
breaker has tripped. -/
def sinceClear : History → List Nat
  | [] => []
  | .advance _ :: before => sinceClear before
  | .failure tick :: before => tick :: sinceClear before
  | .success :: before => if (after limit window before).tripped then sinceClear before else []
  | .reset :: _ => []

/-- How many failures since the last clear are inside the window. -/
def inWindow (h : History) : Nat :=
  (sinceClear limit window h).countP (fun t => latest h < t + max window 1 ∧ t ≤ latest h)

/-- The last event is a failure, and with it the limit is reached. -/
def Reaches (h : History) : Prop :=
  (∃ tick, h.head? = some (.failure tick)) ∧ max limit 1 ≤ inWindow limit window h

/-- A failure since the last reset has reached the limit. -/
def HasReached (h : History) : Prop :=
  ∃ since before, h = since ++ before ∧ (∀ e ∈ since, e.isReset = false) ∧
    Reaches limit window before

end History

variable {limit window tick : Nat} {e : Event} {h : History}

theorem Ordered.of_cons (hordered : Ordered (e :: h)) : Ordered h := by
  have hsub : (ticks h).Sublist (ticks (e :: h)) := (List.sublist_cons_self e h).filterMap _
  exact ⟨hordered.1.sublist hsub, fun t ht => hordered.2 t (hsub.subset ht)⟩

/-- What a history names, it has named by its latest tick. -/
theorem Ordered.le_latest (hordered : Ordered h) {t : Nat} (ht : t ∈ ticks h) : t ≤ latest h := by
  unfold latest
  cases hticks : ticks h with
  | nil => simp [hticks] at ht
  | cons first rest =>
    have hsorted := hordered.1
    rw [hticks] at ht hsorted
    rcases List.mem_cons.mp ht with rfl | ht
    · exact Nat.le_refl _
    · exact (List.pairwise_cons.mp hsorted).1 t ht

/-- A tick that comes next is not before the latest one. -/
theorem Ordered.latest_le (hordered : Ordered (e :: h)) (he : e.tick? = some tick) :
    latest h ≤ tick ∧ 1 ≤ tick := by
  have hticks : ticks (e :: h) = tick :: ticks h := List.filterMap_cons_some he
  unfold Ordered at hordered
  rw [hticks] at hordered
  refine ⟨?_, hordered.2 tick List.mem_cons_self⟩
  unfold latest
  cases hrest : ticks h with
  | nil => exact Nat.zero_le _
  | cons first rest =>
    exact (List.pairwise_cons.mp hordered.1).1 first (hrest ▸ List.mem_cons_self)

/-- The failures since the last clear are named by the history. -/
theorem sinceClear_sublist (limit window : Nat) (h : History) :
    (sinceClear limit window h).Sublist (ticks h) := by
  induction h with
  | nil => exact .refl _
  | cons e before ih =>
    cases e with
    | advance tick => exact ih.cons tick
    | failure tick => exact ih.cons_cons tick
    | success =>
      unfold sinceClear
      split
      · exact ih
      · exact List.nil_sublist _
    | reset => exact List.nil_sublist _

theorem inWindow_le (limit window : Nat) (h : History) :
    inWindow limit window h ≤ h.countP Event.isFailure := by
  have hlength : (sinceClear limit window h).length ≤ h.countP Event.isFailure := by
    induction h with
    | nil => exact Nat.le_refl _
    | cons e before ih =>
      rw [List.countP_cons]
      cases e with
      | advance tick => exact ih
      | failure tick => exact Nat.succ_le_succ ih
      | success =>
        unfold sinceClear
        split
        · exact ih
        · exact Nat.zero_le _
      | reset => exact Nat.zero_le _
  exact Nat.le_trans List.countP_le_length hlength

/-- In a list that never decreases, to drop the front up to a bound is to drop all up to it. -/
theorem dropWhile_le_eq_filter {ts : List Nat} (hsorted : ts.Pairwise (· ≤ ·)) (bound : Nat) :
    ts.dropWhile (· ≤ bound) = ts.filter (bound < ·) := by
  induction ts with
  | nil => rfl
  | cons t rest ih =>
    obtain ⟨hfirst, hrest⟩ := List.pairwise_cons.mp hsorted
    by_cases ht : t ≤ bound
    · rw [List.dropWhile_cons_of_pos (by simpa using ht),
        List.filter_cons_of_neg (by simpa using ht), ih hrest]
    · have hall : ∀ u ∈ t :: rest, bound < u := by
        intro u hu
        rcases List.mem_cons.mp hu with rfl | hu
        · omega
        · have := hfirst u hu
          omega
      rw [List.dropWhile_cons_of_neg (by simpa using ht),
        List.filter_eq_self.mpr (by simpa using hall)]

/-- A breaker holds what its history says: the failures since the last clear that the window has not
left behind. -/
structure Holds (limit window : Nat) (h : History) (b : Breaker) : Prop where
  maxFailures : b.maxFailures = limit
  windowTicks : b.windowTicks = max window 1
  currentTick : b.currentTick = latest h
  failures : b.failures =
    (sinceClear limit window h).reverse.filter (fun t => latest h < t + max window 1)
  totalFailures : b.totalFailures = h.countP Event.isFailure

/-- Aging keeps what is still inside the window at the new tick. -/
theorem Holds.failures_advance {b : Breaker} (hb : Holds limit window h b)
    (hordered : Ordered h) (hlatest : latest h ≤ tick) :
    (b.advance tick).currentTick = tick ∧ (b.advance tick).failures =
      (sinceClear limit window h).reverse.filter (fun t => tick < t + max window 1) := by
  have hcurrent : max b.currentTick tick = tick := by
    rw [hb.currentTick]
    exact Nat.max_eq_right hlatest
  have hmem : ∀ t ∈ (sinceClear limit window h).reverse, 1 ≤ t := fun t ht =>
    hordered.2 t ((sinceClear_sublist limit window h).subset (List.mem_reverse.mp ht))
  have hsorted : (sinceClear limit window h).reverse.Pairwise (· ≤ ·) :=
    List.pairwise_reverse.mpr (hordered.1.sublist (sinceClear_sublist limit window h))
  refine ⟨hcurrent, ?_⟩
  unfold advance
  dsimp only
  rw [hcurrent, hb.windowTicks, hb.failures,
    dropWhile_le_eq_filter (hsorted.sublist List.filter_sublist), List.filter_filter]
  apply List.filter_congr
  intro t ht
  have hpos := hmem t ht
  rw [← Bool.decide_and, decide_eq_decide]
  omega

/-- What a breaker is told next leaves it with what its history says. -/
theorem Holds.hear {b : Breaker} (hb : Holds limit window h b)
    (htripped : b.tripped = (after limit window h).tripped) (hordered : Ordered (e :: h)) :
    Holds limit window (e :: h) (b.hear e) := by
  have hbefore := hordered.of_cons
  cases e with
  | advance tick =>
    obtain ⟨hcurrent, hfailures⟩ := hb.failures_advance hbefore (hordered.latest_le rfl).1
    exact ⟨hb.maxFailures, hb.windowTicks, hcurrent, hfailures, hb.totalFailures⟩
  | failure tick =>
    obtain ⟨hcurrent, hfailures⟩ := hb.failures_advance hbefore (hordered.latest_le rfl).1
    have htotal : (b.hear (.failure tick)).totalFailures = h.countP Event.isFailure + 1 :=
      congrArg (· + 1) hb.totalFailures
    refine ⟨hb.maxFailures, hb.windowTicks, hcurrent, ?_, htotal.trans (List.countP_cons_of_pos rfl).symm⟩
    change (b.advance tick).failures ++ [tick] = _
    have hnew : tick < tick + max window 1 := by omega
    have hlatest : latest (.failure tick :: h) = tick := rfl
    rw [hfailures, sinceClear, List.reverse_cons, List.filter_append, hlatest]
    simp [hnew]
  | success =>
    unfold Breaker.hear recordSuccess
    rw [htripped]
    have hlatest : latest (.success :: h) = latest h := rfl
    cases hlatched : (after limit window h).tripped with
    | true =>
      refine ⟨hb.maxFailures, hb.windowTicks, hb.currentTick, ?_, hb.totalFailures⟩
      rw [sinceClear, hlatched]
      exact hb.failures
    | false =>
      refine ⟨hb.maxFailures, hb.windowTicks, hb.currentTick, ?_, hb.totalFailures⟩
      rw [sinceClear, hlatched]
      rfl
  | reset => exact ⟨hb.maxFailures, hb.windowTicks, hb.currentTick, rfl, hb.totalFailures⟩

/-- After every history a breaker holds what the history says. -/
theorem holds_after (hordered : Ordered h) : Holds limit window h (after limit window h) := by
  induction h with
  | nil => exact ⟨rfl, rfl, rfl, rfl, rfl⟩
  | cons e before ih => exact (ih hordered.of_cons).hear rfl hordered

/-- The failures that a breaker holds are those inside the window. -/
theorem length_failures_after (hordered : Ordered h) :
    (after limit window h).failures.length = inWindow limit window h := by
  rw [(holds_after hordered).failures, ← List.countP_eq_length_filter, List.countP_reverse]
  apply List.countP_congr
  intro t ht
  have hle := hordered.le_latest ((sinceClear_sublist limit window h).subset ht)
  simp [hle]

/-- A failure reaches the limit exactly if the breaker then holds as many failures as the limit. -/
theorem reaches_failure_iff (hordered : Ordered (.failure tick :: h)) :
    Reaches limit window (.failure tick :: h) ↔
      limit ≤ ((after limit window h).advance tick).failures.length + 1 := by
  have hlength : (after limit window (.failure tick :: h)).failures.length =
      inWindow limit window (.failure tick :: h) := length_failures_after hordered
  have hnew : (after limit window (.failure tick :: h)).failures.length =
      ((after limit window h).advance tick).failures.length + 1 := List.length_append
  constructor
  · rintro ⟨-, hreached⟩
    omega
  · intro hreached
    exact ⟨⟨tick, rfl⟩, by omega⟩

/-- A failure trips the breaker exactly if it reaches the limit and none before has. -/
theorem trips_iff (hordered : Ordered (.failure tick :: h)) :
    ((after limit window h).recordFailure tick).2 = true ↔
      Reaches limit window (.failure tick :: h) ∧ (after limit window h).tripped = false := by
  have hbefore := hordered.of_cons
  have hlimit : ((after limit window h).advance tick).maxFailures = limit :=
    (holds_after hbefore).maxFailures
  rw [reaches_failure_iff hordered]
  unfold recordFailure
  dsimp only
  rw [hlimit, List.length_append, List.length_singleton]
  change (!(after limit window h).tripped && _) = true ↔ _
  rw [Bool.and_eq_true, Bool.not_eq_true', decide_eq_true_eq]
  exact And.comm

theorem hasReached_cons_iff : HasReached limit window (e :: h) ↔
    Reaches limit window (e :: h) ∨ (e.isReset = false ∧ HasReached limit window h) := by
  constructor
  · rintro ⟨since, before, hsplit, hkept, hreached⟩
    cases since with
    | nil =>
      rw [List.nil_append] at hsplit
      exact .inl (hsplit ▸ hreached)
    | cons first since =>
      obtain ⟨rfl, rfl⟩ := List.cons.inj hsplit
      exact .inr ⟨hkept _ List.mem_cons_self, since, before, rfl,
        fun e he => hkept e (List.mem_cons_of_mem _ he), hreached⟩
  · rintro (hreached | ⟨hreset, since, before, rfl, hkept, hreached⟩)
    · exact ⟨[], _, rfl, fun e he => absurd he List.not_mem_nil, hreached⟩
    · refine ⟨e :: since, before, rfl, fun e' he' => ?_, hreached⟩
      rcases List.mem_cons.mp he' with rfl | he'
      · exact hreset
      · exact hkept e' he'

/-- An event other than a failure reaches no limit. -/
theorem hasReached_cons_of_not_failure (he : e.isFailure = false) :
    HasReached limit window (e :: h) ↔ e.isReset = false ∧ HasReached limit window h := by
  rw [hasReached_cons_iff, or_iff_right]
  rintro ⟨⟨tick, hfailure⟩, -⟩
  obtain rfl := Option.some.inj hfailure
  cases he

/-- A breaker has tripped exactly if a failure since the last reset has reached the limit. -/
theorem tripped_after_iff (hordered : Ordered h) :
    (after limit window h).tripped = true ↔ HasReached limit window h := by
  induction h with
  | nil =>
    constructor
    · intro htripped
      cases htripped
    · rintro ⟨since, before, hsplit, -, ⟨tick, hfailure⟩, -⟩
      obtain ⟨rfl, rfl⟩ := List.append_eq_nil_iff.mp hsplit.symm
      cases hfailure
  | cons e before ih =>
    have hbefore := ih hordered.of_cons
    cases e with
    | advance tick =>
      rw [hasReached_cons_of_not_failure rfl, ← hbefore]
      exact (and_iff_right rfl).symm
    | failure tick =>
      have htrips : ((after limit window before).recordFailure tick).2 = true ↔
          Reaches limit window (.failure tick :: before) ∧
            (after limit window before).tripped = false := trips_iff hordered
      have htripped : (after limit window (.failure tick :: before)).tripped =
          ((after limit window before).tripped ||
            ((after limit window before).recordFailure tick).2) := rfl
      rw [hasReached_cons_iff, ← hbefore, htripped, Bool.or_eq_true, htrips]
      cases (after limit window before).tripped <;> simp [Event.isReset]
    | success =>
      have htripped : (after limit window (.success :: before)).tripped =
          (after limit window before).tripped := tripped_recordSuccess
      rw [hasReached_cons_of_not_failure rfl, ← hbefore, htripped]
      exact (and_iff_right rfl).symm
    | reset =>
      rw [hasReached_cons_of_not_failure rfl]
      exact ⟨fun htripped => (nomatch htripped), fun hkept => (nomatch hkept.1)⟩

/-- What a breaker shows of a history is what a window that slides over the history shows: the
failures since the last clear whose ticks are in the window, a count of 32 bits; all failures ever;
and whether one since the last reset has reached the limit. A failure reports a trip exactly if it is
the first to do so. -/
theorem shows_history (limit window : Nat) (hordered : Ordered h)
    (hfew : h.countP Event.isFailure < 2 ^ 32) :
    (after limit window h).state.failuresInWindow = inWindow limit window h ∧
      inWindow limit window h ≤ maxCount ∧
      (after limit window h).state.totalFailures = h.countP Event.isFailure ∧
      ((after limit window h).state.tripped = true ↔ HasReached limit window h) ∧
      ∀ tick, Ordered (.failure tick :: h) →
        (((after limit window h).recordFailure tick).2 = true ↔
          Reaches limit window (.failure tick :: h) ∧ ¬ HasReached limit window h) := by
  refine ⟨length_failures_after hordered, ?_, (holds_after hordered).totalFailures,
    tripped_after_iff hordered, ?_⟩
  · have hle := inWindow_le limit window h
    have hmax : maxCount + 1 = 2 ^ 32 := rfl
    omega
  · intro tick hnext
    rw [trips_iff hnext, ← tripped_after_iff hordered, Bool.not_eq_true]

/-- A success cleared the first failure, and the window has left the second one behind. -/
def twoForgotten : History := [.failure 5, .advance 5, .failure 2, .success, .failure 1]

/-- With a limit of two and a window of three ticks one failure is left there, and the next one is the
first to reach the limit. -/
theorem shows_history_twoForgotten :
    Ordered twoForgotten ∧ twoForgotten.countP Event.isFailure < 2 ^ 32 ∧
      Ordered (.failure 6 :: twoForgotten) ∧ (after 2 3 twoForgotten).state.failuresInWindow = 1 ∧
        (after 2 3 twoForgotten).state.totalFailures = 3 ∧
          ((after 2 3 twoForgotten).recordFailure 6).2 = true ∧
            Reaches 2 3 (.failure 6 :: twoForgotten) ∧ ¬ HasReached 2 3 twoForgotten := by
  have hordered : Ordered twoForgotten := by decide
  have hnext : Ordered (.failure 6 :: twoForgotten) := by decide
  obtain ⟨hcount, -, htotal, -, htrips⟩ := shows_history 2 3 hordered (by decide)
  have hfirst : ((after 2 3 twoForgotten).recordFailure 6).2 = true := by decide
  exact ⟨hordered, by decide, hnext, hcount.trans (by decide), htotal.trans (by decide), hfirst,
    (htrips 6 hnext).mp hfirst⟩

end Breaker

end ClusterScaler
