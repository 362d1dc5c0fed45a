import ClusterScaler.Proofs.Restart.Ticks
import ClusterScaler.Proofs.Tick.Hashes
import ClusterScaler.Proofs.Tick.Standing

/-!
# Settled loops

A loop is settled if it has nothing in hand, neither updaters nor outcomes, commands, tainted nodes
or failures, and it is tuned if its breaker has the limits of its configuration. A settled loop that
is tuned ticks like a new one; and what any loop remembers of the states of nodes is no part of
what it does.
-/

set_option autoImplicit false

namespace ClusterScaler

open Program

/-- Without failures in its window a breaker begins a tick with none. -/
theorem Breaker.counts_advance {b : Breaker} {tick : Nat} (hwindow : 0 < b.windowTicks)
    (hcurrent : b.currentTick ≤ tick) (hnone : b.failures = []) :
    (b.advance (tick + 1)).Counts (tick + 1) 0 := by
  refine ⟨hwindow, ?_, Nat.succ_pos tick, ?_⟩
  · exact Nat.max_eq_right (Nat.le_succ_of_le hcurrent)
  · unfold advance
    dsimp only
    rw [hnone]
    rfl

theorem UpdaterPool.collect_of_empty {p : UpdaterPool} (h : p.slots = ∅) (time : Duration) :
    p.collect time = ([], p) ∧ p.overdue time = [] := by
  obtain ⟨slots, grace⟩ := p
  obtain rfl : slots = ∅ := h
  exact ⟨rfl, rfl⟩

namespace ControlLoop

/-- The breaker has the limits of the configuration, and is not ahead of the ticks. -/
structure Tuned (l : ControlLoop) : Prop where
  limit : l.breaker.maxFailures = l.config.tunables.maxFailures
  window : 0 < l.breaker.windowTicks
  current : l.breaker.currentTick ≤ l.ticks

variable {l : ControlLoop}

theorem standing_tuned : Standing Tuned (fun _ => True) where
  congr h hconfig _ hticks hbreaker := by
    obtain ⟨hlimit, hwindow, hcurrent⟩ := h
    rw [← hconfig, ← hbreaker] at hlimit
    rw [← hbreaker] at hwindow
    rw [← hbreaker, ← hticks] at hcurrent
    exact ⟨hlimit, hwindow, hcurrent⟩
  failure h := ⟨h.limit, h.window, Nat.max_le.mpr ⟨h.current, Nat.le_refl _⟩⟩
  success {l} h := by
    obtain ⟨hlimit, hwindow, hcurrent⟩ := l.breaker.recordSuccess_same
    exact ⟨hlimit.trans h.limit, hwindow.symm ▸ h.window, hcurrent.symm ▸ h.current⟩
  order _ _ := trivial
  update _ _ _ _ := trivial
  looks _ := trivial
  terminate _ := trivial
  abandon _ := trivial
  await := trivial

/-- A configuration that is taken over sets the limits of the breaker. -/
theorem Tuned.obey (h : l.Tuned) (files : FileStore) (c : ControlCommand) :
    (l.obey files c).Tuned := by
  rcases obey_cases files l c with heq | ⟨-, heq⟩ | ⟨config, hashes, -, -, -, heq⟩
  · rw [heq]
    exact h
  · rw [heq]
    exact ⟨h.limit, h.window, h.current⟩
  · rw [heq]
    refine ⟨rfl, Nat.lt_of_lt_of_le Nat.zero_lt_one (Nat.le_max_right _ 1), ?_⟩
    exact Nat.max_le.mpr ⟨h.current, h.current⟩

theorem Tuned.beginTick (h : l.Tuned) (files : FileStore) : (l.beginTick files).Tuned := by
  refine l.beginTick_induct files (motive := Tuned) ?_ ?_
  · exact ⟨h.limit, h.window, Nat.max_le.mpr ⟨Nat.le_succ_of_le h.current, Nat.le_refl _⟩⟩
  · intro l' h' c _
    exact h'.obey files c

/-- A loop has nothing in hand: no updater is in flight, no outcome or command waits, no node is
tainted, and the breaker has seen no failure lately. -/
structure Settled (l : ControlLoop) : Prop where
  idle : l.updaters.slots = ∅
  merged : l.finished = []
  obeyed : l.commands = []
  untainted : l.tainted = []
  untripped : l.breaker.tripped = false
  unfailing : l.breaker.failures = []

instance : Decidable l.Settled :=
  decidable_of_iff (l.updaters.slots.isEmpty ∧ l.finished.isEmpty ∧ l.commands.isEmpty ∧
    l.tainted.isEmpty ∧ l.breaker.tripped = false ∧ l.breaker.failures.isEmpty) (by
      simp only [List.isEmpty_iff]
      constructor
      · rintro ⟨hslots, hfinished, hcommands, htainted, htripped, hfailures⟩
        exact ⟨Table.ext (List.isEmpty_iff.mp hslots), hfinished, hcommands, htainted, htripped,
          hfailures⟩
      · rintro ⟨hslots, hfinished, hcommands, htainted, htripped, hfailures⟩
        exact ⟨by rw [hslots]; rfl, hfinished, hcommands, htainted, htripped, hfailures⟩)

/-- A settled loop begins a tick by counting it. -/
theorem Settled.begun (h : l.Settled) (files : FileStore) (now : Nat) (time : Duration) :
    l.beginTick files = { l with ticks := l.ticks + 1, breaker := l.breaker.advance (l.ticks + 1) } ∧
      l.begun files now time = (TickSummary.start (l.ticks + 1) now, l.beginTick files) := by
  have hbegin : l.beginTick files =
      { l with ticks := l.ticks + 1, breaker := l.breaker.advance (l.ticks + 1) } := by
    have hnone : ({ l with commands := [] } : ControlLoop) = l := by
      rw [← h.obeyed]
    unfold beginTick applyCommands
    dsimp only
    rw [h.obeyed]
    change { ({ l with commands := [] } : ControlLoop) with
      ticks := l.ticks + 1, breaker := l.breaker.advance (l.ticks + 1) } = _
    rw [hnone]
  refine ⟨hbegin, ?_⟩
  unfold ControlLoop.begun mergeUpdates
  rw [hbegin]
  dsimp only
  rw [(UpdaterPool.collect_of_empty h.idle time).1, h.merged]
  rfl

/-- A loop with the load store, the demand, the retry policy and the updater settings of another. -/
def equippedLike (fresh l : ControlLoop) : ControlLoop :=
  { fresh with
    loads := l.loads, demand := l.demand, retry := l.retry, pollInterval := l.pollInterval
    updaters := { fresh.updaters with grace := l.updaters.grace } }

/-- A new loop with the same hashes begins a tick like a settled loop, but for its past. -/
theorem Settled.renews {files : FileStore} (h : l.Settled) (htuned : l.Tuned)
    (hhashes : hashesFor files l.config = .ok l.hashes) :
    ∃ fresh, ControlLoop.new files l.config = .ok fresh ∧ (fresh.equippedLike l).Settled ∧
      ∀ now time, (l.begun files now time).2.Renews False
        ((fresh.equippedLike l).begun files now time).2 := by
  unfold ControlLoop.new
  rw [hhashes]
  refine ⟨_, rfl, ?_, ?_⟩
  · exact ⟨rfl, rfl, rfl, rfl, rfl, rfl⟩
  · intro now time
    rw [(h.begun files now time).2, (h.begun files now time).1]
    -- the states that the loops remember differ, and so do their breakers, which stand level
    refine ⟨⟨rfl, rfl, rfl, rfl, h.untainted.symm, rfl, rfl, rfl, ?_⟩, False.elim, ?_⟩
    · intro id
      unfold isUpdating UpdaterPool.isUpdating
      rw [h.idle]
      rfl
    · refine .counting htuned.limit.symm h.untripped.symm
        (Breaker.counts_advance htuned.window htuned.current h.unfailing)
        (Breaker.counts_advance ?_ (Nat.le_refl 0) rfl)
      exact Nat.lt_of_lt_of_le Nat.zero_lt_one (Nat.le_max_right _ 1)

/-- No command concerns the states of nodes. -/
theorem obey_states (files : FileStore) (l : ControlLoop) (c : ControlCommand)
    (states : Table NodeId NodeState) :
    ({ l with states } : ControlLoop).obey files c = { l.obey files c with states } := by
  cases c with
  | resetBreaker => rfl
  | reconfigure config =>
    unfold obey reconfigure
    dsimp only
    by_cases hname : config.clusterName ≠ l.config.clusterName
    · rw [if_pos hname, if_pos hname]
    · rw [if_neg hname, if_neg hname]
      cases hashesFor files config <;> rfl

theorem beginTick_states (files : FileStore) (l : ControlLoop) (states : Table NodeId NodeState) :
    ({ l with states } : ControlLoop).beginTick files = { l.beginTick files with states } := by
  have hfold : ∀ (commands : List ControlCommand) (l : ControlLoop),
      commands.foldl (obey files) { l with states } =
        { commands.foldl (obey files) l with states } := by
    intro commands
    induction commands with
    | nil => exact fun l => rfl
    | cons c rest ih =>
      intro l
      rw [List.foldl_cons, List.foldl_cons, obey_states]
      exact ih (l.obey files c)
  exact hfold l.commands
    { l with ticks := l.ticks + 1, breaker := l.breaker.advance (l.ticks + 1), commands := [] }

/-- Other states that are remembered make no other difference up to the reading. -/
theorem begun_states (files : FileStore) (now : Nat) (time : Duration) (l : ControlLoop)
    (states : Table NodeId NodeState) :
    ∃ states', ({ l with states } : ControlLoop).begun files now time =
      ((l.begun files now time).1, { (l.begun files now time).2 with states := states' }) := by
  have hfold : ∀ (outcomes : List UpdateOutcome) (s : TickSummary) (l : ControlLoop)
      (states : Table NodeId NodeState), ∃ states',
        outcomes.foldl (mergeOutcome now) (s, { l with states }) =
          ((outcomes.foldl (mergeOutcome now) (s, l)).1,
            { (outcomes.foldl (mergeOutcome now) (s, l)).2 with states := states' }) := by
    intro outcomes
    induction outcomes with
    | nil => exact fun s l states => ⟨states, rfl⟩
    | cons o rest ih =>
      intro s l states
      have ho : ∃ states', mergeOutcome now (s, { l with states }) o =
          ((mergeOutcome now (s, l) o).1,
            { (mergeOutcome now (s, l) o).2 with states := states' }) := by
        unfold mergeOutcome
        dsimp only
        cases o.result <;> exact ⟨_, rfl⟩
      obtain ⟨states', ho⟩ := ho
      rw [List.foldl_cons, List.foldl_cons, ho]
      exact ih _ _ states'
  unfold ControlLoop.begun
  rw [beginTick_states]
  exact hfold _ _ { l.beginTick files with
    updaters := ((l.beginTick files).updaters.collect time).2, finished := [] } states

end ControlLoop

namespace Tick

/-- Results agree in whatever follows from that in which they agree. -/
theorem Agree.mono {α : Type} {same same' : α → α → Prop} {result result' : Except LoopError α}
    (h : Agree same result result') (himp : ∀ a a', same a a' → same' a a') :
    Agree same' result result' := by
  cases result with
  | error e =>
    cases result' with
    | error e' => exact h
    | ok a' => exact h.elim
  | ok a =>
    cases result' with
    | error e' => exact h.elim
    | ok a' => exact himp a a' h

variable {files : FileStore} {now : Nat} {time : Duration} {l l' after after' : ControlLoop}
  {trace trace' : List TickExchange} {result result' : Except LoopError TickSummary}

/-- Where the same is answered, a tick does what it does with any other states remembered. -/
theorem states_unheeded {states : Table NodeId NodeState}
    (hrun : Runs ((tick files now time).run l) trace (result, after))
    (hrun' : Runs ((tick files now time).run { l with states }) trace' (result', after'))
    (hsame : AnsweredTheSame trace trace') :
    dialogueOf trace = dialogueOf trace' ∧ Agree (· = ·) result result' ∧
      (result.isOk = true → after'.states = after.states) := by
  obtain ⟨states', hbegun⟩ := ControlLoop.begun_states files now time l states
  have hoverdue : (({ l with states } : ControlLoop).beginTick files).updaters.overdue time =
      (l.beginTick files).updaters.overdue time := by
    rw [ControlLoop.beginTick_states]
  have hsummary : (l.begun files now time).1.SameBut (l.begun files now time).1.tick
      (l.begun files now time).1.tick (({ l with states } : ControlLoop).begun files now time).1 := by
    rw [hbegun]
    exact ⟨rfl, rfl⟩
  have hrenews : (l.begun files now time).2.Renews False
      (({ l with states } : ControlLoop).begun files now time).2 := by
    rw [hbegun]
    exact ⟨.refl _, False.elim, .same⟩
  have htick := together_tick files now time hoverdue hsummary hrenews
  obtain ⟨hdialogue, hagree, hstates⟩ := htick.runs hrun hrun' hsame
  refine ⟨hdialogue, hagree.mono ?_, hstates⟩
  rintro s _ ⟨htick, rfl⟩
  rw [← htick]

/-- A settled loop keeps its configuration and its hashes in a tick. -/
theorem configured_of_runs {r : Except LoopError TickSummary × ControlLoop} (h : l.Settled)
    (hrun : Runs ((tick files now time).run l) trace r) :
    r.2.config = l.config ∧ r.2.hashes = l.hashes := by
  have hbegun : (l.beginTick files).config = l.config ∧ (l.beginTick files).hashes = l.hashes := by
    rw [(h.begun files now time).1]
    exact ⟨rfl, rfl⟩
  exact ((Standing.configured l.config l.hashes).tick files now time hbegun).result hrun
    (follows_asking trace)

/-- Where the same is answered, a settled loop does what a new one does. -/
theorem settled_like_new {fresh : ControlLoop} (hsettled : l.Settled) (hfresh : fresh.Settled)
    (hrenews : (l.begun files now time).2.Renews False (fresh.begun files now time).2)
    (hrun : Runs ((tick files now time).run l) trace (result, after))
    (hrun' : Runs ((tick files now time).run fresh) trace' (result', after'))
    (hsame : AnsweredTheSame trace trace') :
    dialogueOf trace = dialogueOf trace' ∧
      Agree (fun s s' => s' = { s with tick := s'.tick }) result result' ∧
        (result.isOk = true → after'.states = after.states) := by
  have hnone : ∀ {l : ControlLoop}, l.Settled →
      (l.beginTick files).updaters.overdue time = [] := by
    intro l h
    rw [(h.begun files now time).1]
    exact (UpdaterPool.collect_of_empty h.idle time).2
  have hsummary : (l.begun files now time).1.SameBut (l.ticks + 1) (fresh.ticks + 1)
      (fresh.begun files now time).1 := by
    rw [(hsettled.begun files now time).2, (hfresh.begun files now time).2]
    exact ⟨rfl, rfl⟩
  have htick := together_tick files now time ((hnone hfresh).trans (hnone hsettled).symm) hsummary
    hrenews
  obtain ⟨hdialogue, hagree, hstates⟩ := htick.runs hrun hrun' hsame
  refine ⟨hdialogue, hagree.mono ?_, hstates⟩
  rintro s _ ⟨-, rfl⟩
  rfl

end Tick

end ClusterScaler
