import ClusterScaler.Proofs.Breaker.Twins
import ClusterScaler.Proofs.Tick.Frame

/-!
# A tick beside the same tick with another breaker

The parts of a tick in turn, each beside the same part of a tick whose loop has another breaker.
Only the launches differ, and what comes after them asks for nothing that they change.
-/

set_option autoImplicit false

namespace ClusterScaler

open TickM

namespace ControlLoop

/-- The loop with another breaker, and what it shows of itself. -/
def withBreaker (l : ControlLoop) (b : Breaker) (status : ClusterStatus) : ControlLoop :=
  { l with breaker := b, status }

theorem twin_withBreaker (l : ControlLoop) (b : Breaker) (status : ClusterStatus) :
    l.Twin (l.withBreaker b status) :=
  ⟨rfl, rfl, rfl, rfl, rfl, rfl, rfl, rfl, fun _ => rfl⟩

/-- A command finds loops that differ in their breakers, and leaves such. -/
theorem obey_withBreaker (files : FileStore) (l : ControlLoop) (c : ControlCommand) (b : Breaker)
    (status : ClusterStatus) :
    ∃ b' status', (l.withBreaker b status).obey files c =
      (l.obey files c).withBreaker b' status' := by
  cases c with
  | resetBreaker => exact ⟨_, _, rfl⟩
  | reconfigure config =>
    unfold obey reconfigure withBreaker
    dsimp only
    by_cases hname : config.clusterName ≠ l.config.clusterName
    · rw [if_pos hname, if_pos hname]
      exact ⟨_, _, rfl⟩
    · rw [if_neg hname, if_neg hname]
      cases hashesFor files config with
      | error e => exact ⟨_, _, rfl⟩
      | ok hashes => exact ⟨_, _, rfl⟩

theorem beginTick_withBreaker (files : FileStore) (l : ControlLoop) (b : Breaker)
    (status : ClusterStatus) : ∃ b' status', (l.withBreaker b status).beginTick files =
      (l.beginTick files).withBreaker b' status' := by
  have hfold : ∀ (commands : List ControlCommand) (l : ControlLoop) (b : Breaker)
      (status : ClusterStatus), ∃ b' status',
        commands.foldl (obey files) (l.withBreaker b status) =
          (commands.foldl (obey files) l).withBreaker b' status' := by
    intro commands
    induction commands with
    | nil => exact fun l b status => ⟨b, status, rfl⟩
    | cons c rest ih =>
      intro l b status
      obtain ⟨b', status', hc⟩ := obey_withBreaker files l c b status
      rw [List.foldl_cons, List.foldl_cons, hc]
      exact ih (l.obey files c) b' status'
  unfold beginTick applyCommands
  exact hfold l.commands
    { l with ticks := l.ticks + 1, breaker := l.breaker.advance (l.ticks + 1), commands := [] }
    (b.advance (l.ticks + 1)) status

theorem mergeUpdates_withBreaker (l : ControlLoop) (b : Breaker) (status : ClusterStatus)
    (now : Nat) (time : Duration) (s : TickSummary) :
    (l.withBreaker b status).mergeUpdates now time s =
      ((l.mergeUpdates now time s).1, (l.mergeUpdates now time s).2.withBreaker b status) := by
  have hfold : ∀ (outcomes : List UpdateOutcome) (s : TickSummary) (l : ControlLoop),
      outcomes.foldl (mergeOutcome now) (s, l.withBreaker b status) =
        ((outcomes.foldl (mergeOutcome now) (s, l)).1,
          (outcomes.foldl (mergeOutcome now) (s, l)).2.withBreaker b status) := by
    intro outcomes
    induction outcomes with
    | nil => exact fun s l => rfl
    | cons o rest ih =>
      intro s l
      have ho : mergeOutcome now (s, l.withBreaker b status) o =
          ((mergeOutcome now (s, l) o).1,
            (mergeOutcome now (s, l) o).2.withBreaker b status) := by
        unfold mergeOutcome
        dsimp only
        cases o.result <;> rfl
      rw [List.foldl_cons, List.foldl_cons, ho]
      exact ih _ _
  exact hfold _ s { l with updaters := (l.updaters.collect time).2, finished := [] }

/-- Merging the end of a launch order keeps what a tick decides by. -/
theorem twin_mergeLaunch {l l' : ControlLoop} (h : l.Twin l') (s : TickSummary)
    (ended : LaunchEnd) : l.Twin (mergeLaunch (s, l') ended).2 := by
  cases ended with
  | panicked => exact { h with }
  | reported report =>
    have hlaunched : l.Twin (countLaunched report.launched (s, l')).2 := by
      unfold countLaunched
      dsimp only
      split
      · exact h
      · exact { h with }
    unfold mergeLaunch
    dsimp only
    split
    · exact { hlaunched with }
    · exact hlaunched

end ControlLoop

namespace Tick

variable {l l' : ControlLoop} {α : Type}

/-- Two parts of ticks come to the same result, and to loops that decide alike. -/
abbrev Alike (a : α) (l : ControlLoop) (a' : α) (l' : ControlLoop) : Prop := a = a' ∧ l.Twin l'

theorem alike_request (r : Request) (h : l.Twin l') :
    Beside Alike (request r) l (request r) l' :=
  beside_ask_bind (q := .request r) (fun d d' hd => .done ⟨hd, h.complete d.ended d'.ended⟩)

theorem alike_retrying {call : TickM (ProviderResult α)}
    (hcall : ∀ l l', l.Twin l' → Beside Alike call l call l') (h : l.Twin l') :
    Beside Alike (retrying call) l (retrying call) l' := by
  have hattempts : ∀ (policy : RetryPolicy) (left : Nat) (l l' : ControlLoop), l.Twin l' →
      Beside Alike (policy.attempts pause call left) l (policy.attempts pause call left) l' := by
    intro policy left
    induction left with
    | zero => exact hcall
    | succ left ih =>
      intro l l' h
      unfold RetryPolicy.attempts
      refine beside_bind (hcall l l' h) ?_
      rintro result m _ m' ⟨rfl, hm⟩
      cases result with
      | ok a => exact beside_pure ⟨rfl, hm⟩
      | error e =>
        dsimp only
        split
        · refine beside_bind (alike_request (.pause _) hm) ?_
          rintro _ m _ m' ⟨-, hm⟩
          exact ih m m' hm
        · exact beside_pure ⟨rfl, hm⟩
  unfold retrying
  rw [beside_get_bind, h.retry]
  exact hattempts l.retry _ l l' h

theorem alike_readNode (id : NodeId) (h : l.Twin l') :
    Beside Alike (readNode id) l (readNode id) l' := by
  unfold readNode
  refine beside_bind (alike_retrying (fun _ _ h => alike_request (.nodeTags id) h) h) ?_
  rintro tags m _ m' ⟨rfl, hm⟩
  cases tags with
  | error e => exact beside_pure ⟨rfl, hm⟩
  | ok tags =>
    refine beside_bind (alike_retrying (fun _ _ h => alike_request (.isRunning id) h) hm) ?_
    rintro running m _ m' ⟨rfl, hm⟩
    cases running with
    | error e => exact beside_pure ⟨rfl, hm⟩
    | ok running => exact beside_pure ⟨rfl, hm⟩

theorem alike_readNodes (ids seen : List NodeId) (h : l.Twin l') :
    Beside Alike (readNodes seen ids) l (readNodes seen ids) l' := by
  induction ids generalizing seen l l' with
  | nil => exact beside_pure ⟨rfl, h⟩
  | cons id rest ih =>
    unfold readNodes
    split
    · exact beside_pure ⟨rfl, h⟩
    · refine beside_bind (alike_readNode id h) ?_
      rintro node m _ m' ⟨rfl, hm⟩
      refine beside_bind (ih (id :: seen) hm) ?_
      rintro nodes m _ m' ⟨rfl, hm⟩
      cases nodes with
      | error e => exact beside_pure ⟨rfl, hm⟩
      | ok nodes => exact beside_pure ⟨rfl, hm⟩

theorem alike_reconcile (h : l.Twin l') : Beside Alike reconcile l reconcile l' := by
  unfold reconcile
  rw [beside_get_bind, h.config]
  refine beside_bind (alike_retrying (fun _ _ h => alike_request (.listNodes _) h) h) ?_
  rintro ids m _ m' ⟨rfl, hm⟩
  cases ids with
  | error e => exact beside_pure ⟨rfl, hm⟩
  | ok ids => exact alike_readNodes ids [] hm

theorem alike_terminate (doomed : List NodeId) (s : TickSummary) (h : l.Twin l') :
    Beside Alike (terminate doomed s) l (terminate doomed s) l' := by
  unfold terminate
  split
  · exact beside_pure ⟨rfl, h⟩
  · rw [beside_modify_bind]
    have hmarked : (l.markAll .terminating doomed).Twin (l'.markAll .terminating doomed) := by
      refine { h with states := ?_ }
      unfold ControlLoop.markAll
      rw [h.states]
    refine beside_bind (alike_retrying
      (fun _ _ h => alike_request (.terminateNodes doomed) h) hmarked) ?_
    rintro result m _ m' ⟨rfl, hm⟩
    cases result with
    | ok _ =>
      refine beside_modify_bind.mpr (beside_pure ⟨rfl, ?_⟩)
      refine { hm with loads := ?_, tainted := ?_, states := ?_ }
      · exact congrArg (doomed.foldl LoadStore.remove) hm.loads
      · exact congrArg (List.filter _) hm.tainted
      · exact congrArg (doomed.foldl (fun t id => t.insert id NodeState.removed)) hm.states
    | error e =>
      exact beside_get_bind.mpr (beside_set_bind.mpr (beside_pure ⟨rfl, { hm with }⟩))

/-- The launches of a tick ask about launches only, and keep what the tick decides by. -/
theorem launchUnlessTripped_onlyLaunches (deficits : List (String × Nat)) (s : TickSummary)
    (h : l.Twin l') :
    (launchUnlessTripped deficits s).Meets SideBySide.onlyLaunches (fun _ m _ => l.Twin m) l' () := by
  have hlaunches : ∀ q : Question, q.aboutLaunches = true →
      q.Kept SideBySide.onlyLaunches (fun m _ => l.Twin m) := by
    intro q hq m _ hm
    refine ⟨hq, ?_⟩
    rintro r _ -
    cases q with
    | awaitLaunch => exact { hm with updating := fun id =>
        (ControlLoop.isUpdating_complete _ _ id).trans (hm.updating id) }
    | launch order => exact hm
    | request r => cases hq
    | dispatch u => cases hq
    | abandon nodes => cases hq
  exact frame_launchUnlessTripped (fun _ o _ s h => hlaunches (.launch o) rfl l' s h)
    (hlaunches .awaitLaunch rfl)
    (fun _ _ sum ended h => ControlLoop.twin_mergeLaunch h sum ended) s h

theorem alike_knownHead (nodes : List NodeRecord) (head : Option HeadAddress) (h : l.Twin l') :
    Beside Alike (knownHead nodes head) l (knownHead nodes head) l' := by
  cases head with
  | some head => exact beside_pure ⟨rfl, h⟩
  | none =>
    unfold knownHead headAddress
    rw [beside_get_bind, h.config]
    dsimp only
    split
    · split <;> exact beside_pure ⟨rfl, h⟩
    · refine beside_bind (alike_retrying (fun _ _ h => alike_request (.internalIp _) h) h) ?_
      rintro address m _ m' ⟨rfl, hm⟩
      cases address with
      | error e => exact beside_pure ⟨rfl, hm⟩
      | ok address => exact beside_pure ⟨rfl, hm⟩

theorem alike_dispatch (time : Duration) (n : NodeRecord) (nodeType : String)
    (hashes : NodeTypeHashes) (head : Option String) (s s' : TickSummary) (h : l.Twin l') :
    Beside (fun _ m _ m' => m.Twin m') (dispatch time n nodeType hashes head s) l
      (dispatch time n nodeType hashes head s') l' := by
  unfold dispatch
  rw [beside_get_bind, h.updateFor]
  dsimp only
  have hnone : l'.updaters.dispatch? (l.updateFor n.id nodeType hashes head) time = none ↔
      l.updaters.dispatch? (l.updateFor n.id nodeType hashes head) time = none := by
    rw [UpdaterPool.dispatch?_eq_none_iff, UpdaterPool.dispatch?_eq_none_iff]
    exact Bool.eq_iff_iff.mp (h.updating n.id)
  cases hsent : l.updaters.dispatch? (l.updateFor n.id nodeType hashes head) time with
  | none =>
    rw [hnone.mpr hsent]
    exact beside_pure h
  | some updaters =>
    cases hsent' : l'.updaters.dispatch? (l.updateFor n.id nodeType hashes head) time with
    | none => exact absurd (hnone.mp hsent') (by rw [hsent]; exact Option.some_ne_none updaters)
    | some updaters' =>
      refine beside_set_bind.mpr (beside_ask_bind (q := .dispatch _) fun _ _ _ => beside_pure ?_)
      refine { h with states := ?_, updating := fun id => ?_ }
      · exact congrArg (·.insert n.id NodeState.updating) h.states
      · have hupdating := UpdaterPool.isUpdating_dispatch hsent id
        have hupdating' := UpdaterPool.isUpdating_dispatch hsent' id
        have hbefore : l'.updaters.isUpdating id = l.updaters.isUpdating id := h.updating id
        exact hupdating'.trans ((congrArg _ hbefore).trans hupdating.symm)

theorem alike_dispatchAll (time : Duration) (all nodes : List NodeRecord)
    (head : Option HeadAddress) (s s' : TickSummary) (h : l.Twin l') :
    Beside (fun _ m _ m' => m.Twin m') (dispatchAll time all head nodes s) l
      (dispatchAll time all head nodes s') l' := by
  induction nodes generalizing head s s' l l' with
  | nil => exact beside_pure h
  | cons n rest ih =>
    unfold dispatchAll
    rw [beside_get_bind, h.behind?, h.config]
    -- the rest is alike wherever the address of the head node comes from
    have hgo : ∀ (nodeType : String) (hashes : NodeTypeHashes) (address : Option String)
        (head' : Option HeadAddress) (m m' : ControlLoop), m.Twin m' →
        Beside (fun _ m _ m' => m.Twin m')
          (do
            let s ← dispatch time n nodeType hashes address s
            dispatchAll time all head' rest s) m
          (do
            let s' ← dispatch time n nodeType hashes address s'
            dispatchAll time all head' rest s') m' := by
      intro nodeType hashes address head' m m' hm
      refine beside_bind (alike_dispatch time n nodeType hashes address s s' hm) ?_
      intro s m s' m' hm
      exact ih head' s s' hm
    split
    · exact ih head s s' h
    · next nodeType hashes _ =>
      split
      · exact hgo nodeType hashes none head l l' h
      · refine beside_bind (alike_knownHead all head h) ?_
        rintro head' m _ m' ⟨rfl, hm⟩
        cases head' with
        | known address => exact hgo nodeType hashes (some address) _ m m' hm
        | pending => exact ih _ s s' hm
        | absent => exact hgo nodeType hashes none _ m m' hm

/-- The same is in hand in the middle of both ticks, as far as it decides what comes. -/
structure Midway.Same (m m' : Midway) : Prop where
  nodes : m'.nodes = m.nodes
  plan : m'.plan = m.plan
  removed : m'.removed = m.removed

/-- From the launches on, ticks that have the same in hand come to the same targets. -/
theorem alike_fromLaunches (now : Nat) (time : Duration) {m m' : Midway} (hm : m.Same m')
    (h : l.Twin l') :
    Beside (fun s _ s' _ => s.targets = s'.targets) (fromLaunches now time m) l
      (fromLaunches now time m') l' := by
  unfold fromLaunches
  rw [hm.nodes, hm.plan, hm.removed]
  have hlaunches : Beside (fun _ m _ m' => m.Twin m')
      (launchUnlessTripped (m.planner.planLaunches m.plan.remaining m.plan.targets) m.summary) l
      (launchUnlessTripped (m'.planner.planLaunches m.plan.remaining m.plan.targets) m'.summary)
      l' := by
    refine SideBySide.mono (SideBySide.of_onlyLaunches
      (launchUnlessTripped_onlyLaunches _ m.summary (.refl l))
      (launchUnlessTripped_onlyLaunches _ m'.summary h)) ?_
    rintro r r' ⟨hr, hr'⟩
    exact hr.symm.trans hr'
  refine beside_bind hlaunches ?_
  intro s l s' l' h
  refine beside_bind (alike_dispatchAll time _ _ none s s' h) ?_
  intro s l s' l' h
  exact beside_modify_bind.mpr (beside_pure rfl)

/-- Two ticks come to the same error, or to what is the same for them. -/
def Agree {α : Type} (same : α → α → Prop) : Except LoopError α → Except LoopError α → Prop
  | .ok a, .ok a' => same a a'
  | .error e, .error e' => e = e'
  | .ok _, .error _ | .error _, .ok _ => False

theorem alike_toLaunches (files : FileStore) (now : Nat) (time : Duration) (l : ControlLoop)
    (b : Breaker) (status : ClusterStatus) :
    Beside (fun result l result' l' => Agree Midway.Same result result' ∧ l.Twin l')
      (toLaunches files now time) l (toLaunches files now time) (l.withBreaker b status) := by
  obtain ⟨b', status', hbegin⟩ := ControlLoop.beginTick_withBreaker files l b status
  unfold toLaunches
  rw [beside_modify_bind, hbegin, beside_get_bind]
  refine beside_ask_bind (q := .abandon ((l.beginTick files).updaters.overdue time)) ?_
  intro _ _ _
  rw [beside_get_bind, beside_get_bind, ControlLoop.mergeUpdates_withBreaker, beside_set_bind]
  refine beside_bind (alike_reconcile (ControlLoop.twin_withBreaker _ b' status')) ?_
  rintro result l _ l' ⟨rfl, h⟩
  cases result with
  | error e => exact beside_pure ⟨rfl, h⟩
  | ok nodes =>
    dsimp only
    rw [beside_modify_bind, beside_get_bind, (h.takeIn nodes now).planTick]
    refine beside_bind (alike_terminate _ _ (h.takeIn nodes now)) ?_
    rintro r l _ l' ⟨rfl, h⟩
    exact beside_pure ⟨⟨rfl, rfl, rfl⟩, h⟩

/-- A tick goes beside the same tick with another breaker, and both come to the same targets. -/
theorem alike_tick (files : FileStore) (now : Nat) (time : Duration) (l : ControlLoop)
    (b : Breaker) :
    Beside (fun result _ result' _ => Agree (·.targets = ·.targets) result result')
      (tick files now time) l (tick files now time) { l with breaker := b } := by
  rw [toLaunches_pass]
  refine beside_bind (alike_toLaunches files now time l b l.status) ?_
  rintro result l result' l' ⟨hsame, h⟩
  cases result with
  | error e =>
    cases result' with
    | error e' => exact beside_pure hsame
    | ok m' => exact hsame.elim
  | ok m =>
    cases result' with
    | error e' => exact hsame.elim
    | ok m' =>
      refine beside_bind (alike_fromLaunches now time hsame h) ?_
      intro s _ s' _ htargets
      exact beside_pure htargets

end Tick

end ClusterScaler
