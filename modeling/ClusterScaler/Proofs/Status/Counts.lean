import ClusterScaler.Proofs.Table.Lookup
import ClusterScaler.Proofs.Tick.Passage
import Mathlib.Algebra.GroupWithZero.Nat

/-!
# Counts of a tick

A tick counts launched and terminated nodes and failures of the provider twice: in its summary, which
starts from nothing, and in the totals of the loop. A loop that balances with a summary has the totals of
an earlier loop and what the summary has counted since (`TickSummary.Balances`). Each place where a tick
counts keeps the balance, and nothing else changes the totals, neither between ticks (`Idles.totals`)
nor before the provider is asked (`balances_begun`).

Besides, the table in which a status counts nodes by their types is described (`Table.get?_tally`).
-/

set_option autoImplicit false

namespace ClusterScaler

namespace Table

variable {κ α : Type} [KeyOrder κ]

/-- How many members of a list have each key. -/
def tally (key : α → κ) (xs : List α) : Table κ Nat :=
  xs.foldl (fun t x => t.upsert (key x) 0 (· + 1)) ∅

/-- A key stands in a tally with the number of members that have it, if there are any. -/
theorem get?_tally [DecidableEq κ] (key : α → κ) (xs : List α) (k : κ) :
    (tally key xs).get? k =
      if xs.countP (key · = k) = 0 then none else some (xs.countP (key · = k)) := by
  have hfold : ∀ (t : Table κ Nat),
      (xs.foldl (fun t x => t.upsert (key x) 0 (· + 1)) t).get? k =
        if xs.countP (key · = k) = 0 then t.get? k
        else some ((t.get? k).getD 0 + xs.countP (key · = k)) := by
    induction xs with
    | nil => exact fun t => rfl
    | cons x xs ih =>
      intro t
      rw [List.foldl_cons, ih, get?_upsert, List.countP_cons]
      by_cases hx : key x = k
      · subst hx
        simp only [decide_true, if_true, Option.getD_some]
        split
        · next hzero => simp [hzero]
        · simp only [Nat.add_eq_zero_iff, Nat.one_ne_zero, and_false, if_false, Option.some.injEq]
          omega
      · have hne : ¬ k = key x := fun heq => hx heq.symm
        simp [hx, hne]
  have hcount := hfold ∅
  rw [get?_empty, Option.getD_none, Nat.zero_add] at hcount
  exact hcount

theorem sum_insertInto (k : κ) (n : Nat) (es : List (κ × Nat)) :
    ((insertInto k n es).map (·.2)).sum + (lookupIn k es).getD 0 = (es.map (·.2)).sum + n := by
  induction es with
  | nil => simp [insertInto, lookupIn]
  | cons e es ih =>
    obtain ⟨k', m⟩ := e
    unfold insertInto lookupIn
    split
    · simp
      omega
    · split
      · simp only [List.map_cons, List.sum_cons]
        omega
      · simp
        omega

/-- The numbers of a tally add up to the length of the list. -/
theorem sum_tally (key : α → κ) (xs : List α) : (tally key xs).values.sum = xs.length := by
  have hone : ∀ (t : Table κ Nat) (k : κ), (t.upsert k 0 (· + 1)).values.sum = t.values.sum + 1 := by
    intro t k
    have hinsert := sum_insertInto k ((t.get? k).getD 0 + 1) t.entries
    have hvalues : (t.upsert k 0 (· + 1)).values.sum + (t.get? k).getD 0 =
        t.values.sum + ((t.get? k).getD 0 + 1) := hinsert
    omega
  have hfold : ∀ (t : Table κ Nat),
      (xs.foldl (fun t x => t.upsert (key x) 0 (· + 1)) t).values.sum = t.values.sum + xs.length := by
    induction xs with
    | nil => exact fun t => rfl
    | cons x xs ih =>
      intro t
      rw [List.foldl_cons, ih, hone, List.length_cons]
      omega
  have hsum := hfold ∅
  exact hsum.trans (Nat.zero_add _)

end Table

/-- The totals of a loop are the same. -/
structure ControlLoop.SameTotals (l l' : ControlLoop) : Prop where
  launched : l'.launched = l.launched
  terminated : l'.terminated = l.terminated
  failures : l'.breaker.totalFailures = l.breaker.totalFailures

/-- The totals of a loop are those of an earlier one and what a summary has counted. -/
structure TickSummary.Balances (sum : TickSummary) (earlier l : ControlLoop) : Prop where
  launched : l.launched = earlier.launched + sum.launched
  terminated : l.terminated = earlier.terminated + sum.terminated
  failures : l.breaker.totalFailures = earlier.breaker.totalFailures + sum.providerFailures

namespace ControlLoop

variable {l l' l'' : ControlLoop}

theorem SameTotals.refl (l : ControlLoop) : l.SameTotals l := ⟨rfl, rfl, rfl⟩

theorem SameTotals.trans (h : l.SameTotals l') (h' : l'.SameTotals l'') : l.SameTotals l'' :=
  ⟨h'.launched.trans h.launched, h'.terminated.trans h.terminated, h'.failures.trans h.failures⟩

/-- No command concerns the totals: neither does a reset of the breaker. -/
theorem sameTotals_obey (files : FileStore) (l : ControlLoop) (c : ControlCommand) :
    l.SameTotals (l.obey files c) := by
  rcases obey_cases files l c with h | ⟨-, h⟩ | ⟨config, hashes, -, -, -, h⟩
  · rw [h]
    exact .refl l
  · rw [h]
    exact ⟨rfl, rfl, rfl⟩
  · rw [h]
    exact ⟨rfl, rfl, rfl⟩

theorem sameTotals_beginTick (l : ControlLoop) (files : FileStore) :
    l.SameTotals (l.beginTick files) :=
  l.beginTick_induct files (motive := fun l' => l.SameTotals l') ⟨rfl, rfl, rfl⟩
    fun l' h c _ => h.trans (sameTotals_obey files l' c)

/-- What can happen between two ticks. -/
inductive Idles : ControlLoop → ControlLoop → Prop where
  /-- Updaters end. -/
  | complete (l : ControlLoop) (ends : List (NodeId × UpdaterEnd)) : Idles l (l.complete ends)
  /-- Heartbeats, demand or commands come in, or a status is published. -/
  | feeds (l : ControlLoop) (feeds : Feeds) : Idles l { l with toFeeds := feeds }
  | obey (files : FileStore) (l : ControlLoop) (command : ControlCommand) :
    Idles l (l.obey files command)
  /-- All updaters have been waited for. -/
  | drain (l : ControlLoop) (time : Duration) :
    Idles l { l with
      updaters := (l.updaters.drain time).2
      finished := l.finished ++ (l.updaters.drain time).1 }
  /-- The updaters are stopped. -/
  | stop (l : ControlLoop) : Idles l { l with updaters := l.updaters.abortAll }

theorem Idles.totals (h : Idles l l') : l.SameTotals l' := by
  cases h with
  | obey files _ command => exact sameTotals_obey files l command
  | _ => exact ⟨rfl, rfl, rfl⟩

/-- Between ticks the totals stay the same. -/
theorem totals_of_idles (h : Relation.ReflTransGen Idles l l') : l.SameTotals l' := by
  induction h with
  | refl => exact .refl l
  | tail _ hstep ih => exact ih.trans hstep.totals

end ControlLoop

namespace TickSummary

open ControlLoop

variable {sum sum' : TickSummary} {earlier l l' : ControlLoop}

theorem Balances.congr (h : sum.Balances earlier l) (hsame : l.SameTotals l') :
    sum.Balances earlier l' :=
  ⟨hsame.launched.trans h.launched, hsame.terminated.trans h.terminated,
    hsame.failures.trans h.failures⟩

theorem balances_countFailure (h : sum.Balances earlier l) :
    (countFailure (sum, l)).1.Balances earlier (countFailure (sum, l)).2 := by
  have hfailures : (l.breaker.recordFailure l.ticks).1.totalFailures =
      l.breaker.totalFailures + 1 := rfl
  refine ⟨h.launched, h.terminated, ?_⟩
  exact hfailures.trans (congrArg (· + 1) h.failures)

theorem balances_countLaunched (n : Nat) (h : sum.Balances earlier l) :
    (countLaunched n (sum, l)).1.Balances earlier (countLaunched n (sum, l)).2 := by
  have hfailures : l.breaker.recordSuccess.totalFailures = l.breaker.totalFailures := by
    unfold Breaker.recordSuccess
    split <;> rfl
  unfold countLaunched
  dsimp only
  split
  · exact h
  · exact ⟨by rw [h.launched, Nat.add_assoc], h.terminated, hfailures.trans h.failures⟩

/-- A launch order that has ended is counted on both sides. -/
theorem balances_mergeLaunch (ended : LaunchEnd) (h : sum.Balances earlier l) :
    (mergeLaunch (sum, l) ended).1.Balances earlier (mergeLaunch (sum, l) ended).2 := by
  cases ended with
  | panicked => exact balances_countFailure h
  | reported r =>
    have hlaunched := balances_countLaunched r.launched h
    unfold mergeLaunch
    dsimp only
    split
    · exact balances_countFailure hlaunched
    · exact hlaunched

/-- A termination that succeeds is counted on both sides. -/
theorem balances_removeAll (gone : List NodeId) (h : sum.Balances earlier l) :
    ({ sum with terminated := sum.terminated + gone.length } : TickSummary).Balances earlier
      (l.removeAll gone) :=
  ⟨h.launched, (congrArg (· + gone.length) h.terminated).trans (Nat.add_assoc ..), h.failures⟩

/-- A tick goes to the provider with nothing counted. -/
theorem balances_begun (files : FileStore) (now : Nat) (time : Duration) (before : ControlLoop) :
    (before.begun files now time).1.Balances before (before.begun files now time).2 := by
  have hbegin := sameTotals_beginTick before files
  have hfold : ∀ (outcomes : List UpdateOutcome) (state : TickSummary × ControlLoop),
      state.1.Balances before state.2 →
        (outcomes.foldl (mergeOutcome now) state).1.Balances before
          (outcomes.foldl (mergeOutcome now) state).2 := by
    intro outcomes state hstate
    refine List.foldlRecOn (motive := fun state : TickSummary × ControlLoop =>
      state.1.Balances before state.2) outcomes (mergeOutcome now) hstate ?_
    rintro ⟨sum, l⟩ h o _
    unfold mergeOutcome
    dsimp only
    cases o.result with
    | ok _ => exact ⟨h.launched, h.terminated, h.failures⟩
    | error e => exact ⟨h.launched, h.terminated, h.failures⟩
  exact hfold _ _ ⟨hbegin.launched, hbegin.terminated, hbegin.failures⟩

end TickSummary

end ClusterScaler
