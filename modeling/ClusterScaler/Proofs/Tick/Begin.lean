import ClusterScaler.ControlLoop.Tick

/-!
# What a tick begins with

Before a tick asks for anything, it applies the commands that wait and merges the outcomes of
updaters. Commands concern the configuration and the breaker, outcomes what is known about nodes;
neither touches what else the loop holds.
-/

set_option autoImplicit false

namespace ClusterScaler.ControlLoop

/-- A configuration that is taken over keeps the name of the cluster, comes with its hashes, and sets
the limits of the breaker. -/
theorem reconfigure_eq_ok {files : FileStore} {config : ClusterConfig} {l l' : ControlLoop}
    (h : l.reconfigure files config = .ok l') :
    ∃ hashes, config.clusterName = l.config.clusterName ∧ hashesFor files config = .ok hashes ∧
      l' = { l with
        config, hashes
        breaker := l.breaker.setLimits config.tunables.maxFailures config.tunables.failureWindowTicks
        retry := { l.retry with maxRetries := config.tunables.providerMaxRetries }
        loads := l.loads.setHeartbeatTimeout config.tunables.heartbeatTimeout } := by
  unfold reconfigure at h
  split at h
  · cases h
  · next hname =>
    cases hhashes : hashesFor files config with
    | error e =>
      rw [hhashes] at h
      cases h
    | ok hashes =>
      rw [hhashes] at h
      cases h
      exact ⟨hashes, Decidable.not_not.mp hname, rfl, rfl⟩

/-- A command changes nothing, resets the breaker, or brings a configuration that is taken over. -/
theorem obey_cases (files : FileStore) (l : ControlLoop) (c : ControlCommand) :
    l.obey files c = l ∨ (c = .resetBreaker ∧ l.obey files c = l.resetBreaker) ∨
      ∃ config hashes, c = .reconfigure config ∧ config.clusterName = l.config.clusterName ∧
        hashesFor files config = .ok hashes ∧ l.obey files c = { l with
          config, hashes
          breaker :=
            l.breaker.setLimits config.tunables.maxFailures config.tunables.failureWindowTicks
          retry := { l.retry with maxRetries := config.tunables.providerMaxRetries }
          loads := l.loads.setHeartbeatTimeout config.tunables.heartbeatTimeout } := by
  cases c with
  | resetBreaker => exact .inr (.inl ⟨rfl, rfl⟩)
  | reconfigure config =>
    unfold obey
    dsimp only
    cases hnew : l.reconfigure files config with
    | error e => exact .inl rfl
    | ok l' =>
      obtain ⟨hashes, hname, hhashes, rfl⟩ := reconfigure_eq_ok hnew
      exact .inr (.inr ⟨config, hashes, rfl, hname, hhashes, rfl⟩)

/-- No command renames the cluster, and none concerns what is known about nodes. -/
theorem obey_same (files : FileStore) (l : ControlLoop) (c : ControlCommand) :
    (l.obey files c).config.clusterName = l.config.clusterName ∧
      (l.obey files c).updaters = l.updaters ∧ (l.obey files c).finished = l.finished ∧
        (l.obey files c).tainted = l.tainted := by
  rcases obey_cases files l c with h | ⟨-, h⟩ | ⟨config, hashes, -, hname, -, h⟩
  · rw [h]
    exact ⟨rfl, rfl, rfl, rfl⟩
  · rw [h]
    exact ⟨rfl, rfl, rfl, rfl⟩
  · rw [h]
    exact ⟨hname, rfl, rfl, rfl⟩

theorem updaters_obey (files : FileStore) (l : ControlLoop) (c : ControlCommand) :
    (l.obey files c).updaters = l.updaters :=
  (obey_same files l c).2.1

theorem commands_obey (files : FileStore) (l : ControlLoop) (c : ControlCommand) :
    (l.obey files c).commands = l.commands := by
  rcases obey_cases files l c with h | ⟨-, h⟩ | ⟨_, _, -, -, -, h⟩
  · rw [h]
  · rw [h]
    rfl
  · rw [h]

/-- What holds of a loop that counts a tick, and stays true with every command that waits, holds when
the tick begins. -/
theorem beginTick_induct {motive : ControlLoop → Prop} (l : ControlLoop) (files : FileStore)
    (counted : motive { l with
      ticks := l.ticks + 1, breaker := l.breaker.advance (l.ticks + 1), commands := [] })
    (obeys : ∀ l', motive l' → ∀ c ∈ l.commands, motive (l'.obey files c)) :
    motive (l.beginTick files) := by
  unfold beginTick applyCommands
  exact List.foldlRecOn l.commands (obey files) counted obeys

theorem beginTick_same (l : ControlLoop) (files : FileStore) :
    (l.beginTick files).config.clusterName = l.config.clusterName ∧
      (l.beginTick files).updaters = l.updaters ∧ (l.beginTick files).finished = l.finished ∧
        (l.beginTick files).tainted = l.tainted := by
  refine l.beginTick_induct files (motive := fun l' =>
    l'.config.clusterName = l.config.clusterName ∧ l'.updaters = l.updaters ∧
      l'.finished = l.finished ∧ l'.tainted = l.tainted) ⟨rfl, rfl, rfl, rfl⟩ ?_
  intro l' h c _
  obtain ⟨hname, hupdaters, hfinished, htainted⟩ := obey_same files l' c
  rw [hname, hupdaters, hfinished, htainted]
  exact h

theorem updaters_beginTick (l : ControlLoop) (files : FileStore) :
    (l.beginTick files).updaters = l.updaters :=
  (l.beginTick_same files).2.1

/-- A tick applies every command that waits. -/
theorem commands_beginTick (l : ControlLoop) (files : FileStore) :
    (l.beginTick files).commands = [] := by
  refine l.beginTick_induct files (motive := fun l' => l'.commands = []) rfl ?_
  intro l' h c _
  exact (commands_obey files l' c).trans h

/-- Unless a new configuration waits, a tick goes on with the one that there is. -/
theorem config_beginTick (l : ControlLoop) (files : FileStore)
    (hnone : ∀ config, .reconfigure config ∉ l.commands) :
    (l.beginTick files).config = l.config := by
  refine l.beginTick_induct files (motive := fun l' => l'.config = l.config) rfl ?_
  intro l' h c hc
  cases c with
  | resetBreaker => exact h
  | reconfigure config => exact absurd hc (hnone config)

/-- Merging outcomes takes them out of the pool and changes what is known about nodes. -/
theorem mergeUpdates_eq (l : ControlLoop) (now : Nat) (time : Duration) (s : TickSummary) :
    ∃ loads states tainted updateFailures, (l.mergeUpdates now time s).2 =
      { l with
        loads, states, tainted, updateFailures
        updaters := (l.updaters.collect time).2, finished := [] } := by
  unfold mergeUpdates
  dsimp only
  apply List.foldlRecOn (motive := fun state : TickSummary × ControlLoop =>
    ∃ loads states tainted updateFailures, state.2 =
      { l with
        loads, states, tainted, updateFailures
        updaters := (l.updaters.collect time).2, finished := [] }) _ (mergeOutcome now)
  · exact ⟨l.loads, l.states, l.tainted, l.updateFailures, rfl⟩
  · rintro ⟨s', l'⟩ ⟨loads, states, tainted, failures, rfl⟩ o _
    unfold mergeOutcome
    dsimp only
    cases o.result with
    | ok _ => exact ⟨_, _, _, _, rfl⟩
    | error e => exact ⟨_, _, _, _, rfl⟩

/-- Merging outcomes taints the nodes whose update failed, and no tainted node is forgotten. -/
theorem mem_tainted_mergeUpdates {l : ControlLoop} {now : Nat} {time : Duration} {s : TickSummary}
    {node : NodeId} (h : node ∈ l.tainted ∨
      ∃ o ∈ l.finished ++ (l.updaters.collect time).1, o.node = node ∧ o.result.isOk = false) :
    node ∈ (l.mergeUpdates now time s).2.tainted := by
  -- the fold keeps what is tainted, and taints the node when its outcome comes
  have hfold : ∀ (outcomes : List UpdateOutcome) (state : TickSummary × ControlLoop),
      (node ∈ state.2.tainted ∨ ∃ o ∈ outcomes, o.node = node ∧ o.result.isOk = false) →
        node ∈ (outcomes.foldl (mergeOutcome now) state).2.tainted := by
    intro outcomes
    induction outcomes with
    | nil =>
      rintro state (hold | ⟨o, ho, -⟩)
      · exact hold
      · cases ho
    | cons o rest ih =>
      rintro ⟨s', l'⟩ hmem
      refine ih _ ?_
      unfold mergeOutcome
      dsimp only
      rcases hmem with hold | ⟨o', ho', hnode, hfailed⟩
      · left
        cases o.result with
        | ok _ => exact hold
        | error e => exact List.mem_append_left _ hold
      · rcases List.mem_cons.mp ho' with rfl | ho'
        · left
          cases hresult : o'.result with
          | ok _ =>
            rw [hresult] at hfailed
            cases hfailed
          | error e => exact List.mem_append_right _ (List.mem_singleton.mpr hnode.symm)
        · exact .inr ⟨o', ho', hnode, hfailed⟩
  exact hfold _ _ h

end ClusterScaler.ControlLoop
