import ClusterScaler.Proofs.Breaker.Windows
import ClusterScaler.Proofs.Labels.Hashes
import Mathlib.Data.List.TakeWhile

/-!
# What commands do

The commands that wait are obeyed in the order in which they came, each by the loop that the one
before it left. A configuration is taken over whole or not at all: it is acceptable if it keeps the
name of the cluster and each mount of each of its node types can be hashed (`isOk_hashesFor`). One
that is not leaves the loop as it was; one that is brings its hashes and its limits and touches
nothing else. So after any row of commands the loop runs under one configuration in all that a
configuration sets, the last acceptable one if there was any (`Effects.settings_eq`).
-/

set_option autoImplicit false

namespace ClusterScaler

section Reading

variable {α β ε : Type}

theorem isOk_bind_pure (x : Except ε α) (f : α → β) :
    (do return f (← x) : Except ε β).isOk = x.isOk := by
  cases x <;> rfl

theorem isOk_iff {x : Except ε α} : x.isOk ↔ ∃ a, x = .ok a := by
  cases x with
  | error e => exact ⟨fun h => absurd h Bool.false_ne_true, fun ⟨_, h⟩ => nomatch h⟩
  | ok a => exact ⟨fun _ => ⟨a, rfl⟩, fun _ => rfl⟩

/-- A list is read in turn exactly if each of its members is. -/
theorem isOk_mapM (f : α → Except ε β) (as : List α) :
    (as.mapM f).isOk = as.all fun a => (f a).isOk := by
  induction as with
  | nil => rfl
  | cons a as ih =>
    rw [List.mapM_cons, List.all_cons, ← ih]
    cases f a with
    | error e => rfl
    | ok b => exact isOk_bind_pure (as.mapM f) (b :: ·)

end Reading

/-- Mounts and commands can be hashed exactly if each of the mounts can. -/
theorem FilesHash.isOk_compute (files : FileStore) (mounts : Table String String)
    (commands : List String) :
    (compute files mounts commands).isOk =
      mounts.entries.all fun m => (pathChunks files m.2).isOk := by
  unfold compute chunks
  rw [isOk_bind_pure, isOk_bind_pure, isOk_mapM]
  exact congrArg mounts.entries.all (funext fun m => isOk_bind_pure _ _)

/-- The node types of a configuration have hashes exactly if each mount of each of them can be
hashed. -/
theorem isOk_hashesFor (files : FileStore) (c : ClusterConfig) :
    (hashesFor files c).isOk = c.nodeTypes.entries.all fun e =>
      (c.fileMountsFor e.1).entries.all fun m => (FilesHash.pathChunks files m.2).isOk := by
  unfold hashesFor
  rw [isOk_bind_pure, isOk_mapM]
  refine congrArg c.nodeTypes.entries.all (funext fun e => ?_)
  rw [isOk_bind_pure]
  unfold hashesOf
  rw [isOk_bind_pure, FilesHash.isOk_compute]

/-- The hashes of a configuration are, under each name, those of the type of that name. -/
theorem map_get?_hashesFor {files : FileStore} {config : ClusterConfig}
    {hashes : Table String NodeTypeHashes} (h : hashesFor files config = .ok hashes)
    (name : String) : (hashes.get? name).map Except.ok =
      (config.nodeTypes.get? name).map (hashesOf files config name) := by
  have hsome := isSome_hashesFor h name
  cases hget : hashes.get? name with
  | none =>
    rw [hget] at hsome
    cases htype : config.nodeTypes.get? name with
    | none => rfl
    | some t =>
      rw [htype] at hsome
      exact absurd (hsome.mpr rfl) Bool.false_ne_true
  | some hs =>
    obtain ⟨t, ht, hok⟩ := get?_hashesFor h hget
    have htype : config.nodeTypes.get? name = some t := ht
    rw [htype, Option.map_some, Option.map_some, hok]

theorem hashes_unique {files : FileStore} {config : ClusterConfig}
    {hashes hashes' : Table String NodeTypeHashes} (h : hashesFor files config = .ok hashes)
    (h' : ∀ name, (hashes'.get? name).map Except.ok =
      (config.nodeTypes.get? name).map (hashesOf files config name)) : hashes' = hashes := by
  refine Table.ext_get? fun name => ?_
  have heq := (h' name).trans (map_get?_hashesFor h name).symm
  exact Option.map_injective (fun _ _ => Except.ok.inj) heq

namespace Breaker

/-- What is left of a row of failures when a window opens behind `start`: failures go from the front,
the oldest first, and of a row in order just those inside the window are left. -/
structure Leaves (start : Nat) (failures left : List Nat) : Prop where
  gone : ∃ old, failures = old ++ left ∧ ∀ t ∈ old, t ≤ start
  first : ∀ t ∈ left.head?, start < t
  ordered : failures.Pairwise (· ≤ ·) → left = failures.filter (start < ·)

theorem leaves_iff {start : Nat} {failures left : List Nat} :
    Leaves start failures left ↔ left = failures.dropWhile (· ≤ start) := by
  constructor
  · rintro ⟨⟨old, rfl, hold⟩, hfirst, -⟩
    rw [List.dropWhile_append_of_pos fun t ht => decide_eq_true (hold t ht)]
    cases left with
    | nil => rfl
    | cons t rest =>
      have ht := hfirst t rfl
      rw [List.dropWhile_cons_of_neg (by simpa using ht)]
  · rintro rfl
    refine ⟨⟨failures.takeWhile (· ≤ start), List.takeWhile_append_dropWhile.symm, ?_⟩, ?_, ?_⟩
    · intro t ht
      exact of_decide_eq_true (List.mem_takeWhile_imp (p := fun t => decide (t ≤ start)) ht)
    · intro t ht
      have hneg := List.head?_dropWhile_not (fun t => decide (t ≤ start)) failures
      rw [Option.mem_def.mp ht] at hneg
      simpa using hneg
    · intro hsorted
      exact dropWhile_le_eq_filter hsorted start

/-- New limits leave the failures that are inside the new window, and nothing else of a breaker
changes. -/
theorem setLimits_eq {b : Breaker} {window : Nat} {left : List Nat}
    (h : Leaves (b.currentTick - max window 1) b.failures left) (limit : Nat) :
    b.setLimits limit window =
      { b with maxFailures := limit, windowTicks := max window 1, failures := left } := by
  unfold setLimits advance
  rw [Nat.max_self, leaves_iff.mp h]

end Breaker

/-- A configuration is acceptable for a cluster if it keeps the name of the cluster and each mount of
each of its node types can be hashed. -/
structure ClusterConfig.Acceptable (files : FileStore) (cluster : String) (config : ClusterConfig) :
    Prop where
  name : config.clusterName = cluster
  mounts : ∀ e ∈ config.nodeTypes.entries, ∀ m ∈ (config.fileMountsFor e.1).entries,
    (FilesHash.pathChunks files m.2).isOk

theorem ClusterConfig.acceptable_iff {files : FileStore} {cluster : String}
    {config : ClusterConfig} : config.Acceptable files cluster ↔
      config.clusterName = cluster ∧ ∃ hashes, hashesFor files config = .ok hashes := by
  rw [← isOk_iff, isOk_hashesFor]
  simp only [List.all_eq_true]
  exact ⟨fun h => ⟨h.name, h.mounts⟩, fun h => ⟨h.1, h.2⟩⟩

namespace ControlLoop

variable {files : FileStore} {l l' : ControlLoop}

/-- What a command makes of a loop. -/
inductive Effect (files : FileStore) (l : ControlLoop) : ControlCommand → ControlLoop → Prop where
  | reset : Effect files l .resetBreaker { l with
      breaker := { l.breaker with tripped := false, failures := [] }
      status := { l.status with
        breaker := { l.breaker.state with tripped := false, failuresInWindow := 0 } } }
  | rejected {config : ClusterConfig} (hunfit : ¬ config.Acceptable files l.config.clusterName) :
      Effect files l (.reconfigure config) l
  | accepted {config : ClusterConfig} {hashes : Table String NodeTypeHashes} {left : List Nat}
      (hfit : config.Acceptable files l.config.clusterName)
      (hhashes : ∀ name, (hashes.get? name).map Except.ok =
        (config.nodeTypes.get? name).map (hashesOf files config name))
      (hleft : Breaker.Leaves (l.breaker.currentTick - max config.tunables.failureWindowTicks 1)
        l.breaker.failures left) :
      Effect files l (.reconfigure config) { l with
        config, hashes
        breaker := { l.breaker with
          maxFailures := config.tunables.maxFailures
          windowTicks := max config.tunables.failureWindowTicks 1
          failures := left }
        retry := { l.retry with maxRetries := config.tunables.providerMaxRetries }
        loads := { l.loads with heartbeatTimeout := config.tunables.heartbeatTimeout } }

/-- What a row of commands makes of a loop, one command after the other. -/
inductive Effects (files : FileStore) : ControlLoop → List ControlCommand → ControlLoop → Prop where
  | nil {l : ControlLoop} : Effects files l [] l
  | cons {l l₁ l₂ : ControlLoop} {c : ControlCommand} {rest : List ControlCommand}
      (first : l.Effect files c l₁) (others : Effects files l₁ rest l₂) :
      Effects files l (c :: rest) l₂

/-- All that a configuration sets. -/
structure Settings where
  config : ClusterConfig
  hashes : Table String NodeTypeHashes
  maxFailures : Nat
  windowTicks : Nat
  maxRetries : Nat
  heartbeatTimeout : Nat

/-- What a loop runs under. -/
def settings (l : ControlLoop) : Settings :=
  ⟨l.config, l.hashes, l.breaker.maxFailures, l.breaker.windowTicks, l.retry.maxRetries,
    l.loads.heartbeatTimeout⟩

/-- What a configuration with its hashes sets. -/
def Settings.of (config : ClusterConfig) (hashes : Table String NodeTypeHashes) : Settings :=
  ⟨config, hashes, config.tunables.maxFailures, max config.tunables.failureWindowTicks 1,
    config.tunables.providerMaxRetries, config.tunables.heartbeatTimeout⟩

/-- What no command touches is the same. -/
structure Spared (l l' : ControlLoop) : Prop where
  tainted : l'.tainted = l.tainted
  updaters : l'.updaters = l.updaters
  finished : l'.finished = l.finished
  states : l'.states = l.states
  records : l'.loads.records = l.loads.records
  demand : l'.demand = l.demand
  ticks : l'.ticks = l.ticks
  launched : l'.launched = l.launched
  terminated : l'.terminated = l.terminated
  updateFailures : l'.updateFailures = l.updateFailures
  totalFailures : l'.breaker.totalFailures = l.breaker.totalFailures

theorem Spared.trans {l l₁ l₂ : ControlLoop} (h : Spared l l₁) (h' : Spared l₁ l₂) :
    Spared l l₂ where
  tainted := h'.tainted.trans h.tainted
  updaters := h'.updaters.trans h.updaters
  finished := h'.finished.trans h.finished
  states := h'.states.trans h.states
  records := h'.records.trans h.records
  demand := h'.demand.trans h.demand
  ticks := h'.ticks.trans h.ticks
  launched := h'.launched.trans h.launched
  terminated := h'.terminated.trans h.terminated
  updateFailures := h'.updateFailures.trans h.updateFailures
  totalFailures := h'.totalFailures.trans h.totalFailures

theorem obey_of_acceptable {config : ClusterConfig} {hashes : Table String NodeTypeHashes}
    (hname : config.clusterName = l.config.clusterName)
    (hhashes : hashesFor files config = .ok hashes) :
    l.obey files (.reconfigure config) = { l with
      config, hashes
      breaker := l.breaker.setLimits config.tunables.maxFailures config.tunables.failureWindowTicks
      retry := { l.retry with maxRetries := config.tunables.providerMaxRetries }
      loads := l.loads.setHeartbeatTimeout config.tunables.heartbeatTimeout } := by
  unfold obey reconfigure
  dsimp only
  rw [if_neg (not_not_intro hname), hhashes]

theorem obey_of_not_acceptable {config : ClusterConfig}
    (h : ¬ config.Acceptable files l.config.clusterName) :
    l.obey files (.reconfigure config) = l := by
  unfold obey
  dsimp only
  cases hnew : l.reconfigure files config with
  | error e => rfl
  | ok l₁ =>
    obtain ⟨hashes, hname, hhashes, -⟩ := reconfigure_eq_ok hnew
    exact absurd (ClusterConfig.acceptable_iff.mpr ⟨hname, hashes, hhashes⟩) h

/-- The effect of a command is what the loop makes of it, and nothing else. -/
theorem effect_iff {c : ControlCommand} : l.Effect files c l' ↔ l' = l.obey files c := by
  constructor
  · rintro (_ | hunfit | ⟨hfit, hhashes, hleft⟩)
    · rfl
    · exact (obey_of_not_acceptable hunfit).symm
    · obtain ⟨hname, hashes, hok⟩ := ClusterConfig.acceptable_iff.mp hfit
      obtain rfl := hashes_unique hok hhashes
      rw [obey_of_acceptable hname hok, Breaker.setLimits_eq hleft]
      rfl
  · rintro rfl
    cases c with
    | resetBreaker => exact .reset
    | reconfigure config =>
      by_cases hfit : config.Acceptable files l.config.clusterName
      · obtain ⟨hname, hashes, hhashes⟩ := ClusterConfig.acceptable_iff.mp hfit
        rw [obey_of_acceptable hname hhashes, Breaker.setLimits_eq (Breaker.leaves_iff.mpr rfl)]
        exact .accepted hfit (map_get?_hashesFor hhashes) (Breaker.leaves_iff.mpr rfl)
      · rw [obey_of_not_acceptable hfit]
        exact .rejected hfit

theorem effects_iff {cs : List ControlCommand} :
    Effects files l cs l' ↔ l' = cs.foldl (obey files) l := by
  induction cs generalizing l with
  | nil =>
    constructor
    · rintro ⟨⟩
      rfl
    · rintro rfl
      exact .nil
  | cons c rest ih =>
    rw [List.foldl_cons]
    constructor
    · rintro (_ | ⟨hfirst, hothers⟩)
      rw [← effect_iff.mp hfirst]
      exact ih.mp hothers
    · intro h
      exact .cons (effect_iff.mpr rfl) (ih.mpr h)

theorem Effect.spared {c : ControlCommand} (h : l.Effect files c l') : Spared l l' := by
  rcases h with _ | _ | _ <;> constructor <;> rfl

theorem Effects.spared {cs : List ControlCommand} (h : Effects files l cs l') : Spared l l' := by
  induction h with
  | nil => constructor <;> rfl
  | cons first _ ih => exact first.spared.trans ih

/-- Only a reset touches the flag of the breaker. -/
theorem Effects.tripped_eq {cs : List ControlCommand} (h : Effects files l cs l')
    (hnone : .resetBreaker ∉ cs) : l'.breaker.tripped = l.breaker.tripped := by
  induction h with
  | nil => rfl
  | cons first _ ih =>
    rw [ih fun hmem => hnone (List.mem_cons_of_mem _ hmem)]
    cases first with
    | reset => exact absurd List.mem_cons_self hnone
    | rejected _ => rfl
    | accepted _ _ _ => rfl

theorem Effect.clusterName_eq {c : ControlCommand} (h : l.Effect files c l') :
    l'.config.clusterName = l.config.clusterName := by
  rw [effect_iff.mp h]
  exact (obey_same files l c).1

/-- After a row of commands a loop runs under the last configuration among them that is acceptable,
whole, or under what it ran under before if there is none. -/
theorem Effects.settings_eq {cs : List ControlCommand} (h : Effects files l cs l') :
    (∃ before config after hashes, cs = before ++ .reconfigure config :: after ∧
      config.Acceptable files l.config.clusterName ∧
      (∀ config', .reconfigure config' ∈ after →
        ¬ config'.Acceptable files l.config.clusterName) ∧
      hashesFor files config = .ok hashes ∧ l'.settings = .of config hashes) ∨
    ((∀ config, .reconfigure config ∈ cs → ¬ config.Acceptable files l.config.clusterName) ∧
      l'.settings = l.settings) := by
  induction h with
  | nil => exact .inr ⟨fun _ hmem => absurd hmem List.not_mem_nil, rfl⟩
  | @cons l l₁ l₂ c rest first _ ih =>
    rw [first.clusterName_eq] at ih
    obtain ⟨before, config, after, hashes, rfl, hlast⟩ | ⟨hnone, hsame⟩ := ih
    · exact .inl ⟨c :: before, config, after, hashes, rfl, hlast⟩
    · cases first with
      | reset =>
        refine .inr ⟨fun config hmem => ?_, hsame⟩
        rcases List.mem_cons.mp hmem with heq | hmem
        · cases heq
        · exact hnone config hmem
      | rejected hunfit =>
        refine .inr ⟨fun config hmem => ?_, hsame⟩
        rcases List.mem_cons.mp hmem with heq | hmem
        · cases heq
          exact hunfit
        · exact hnone config hmem
      | @accepted config hashes left hfit hhashes hleft =>
        obtain ⟨-, hashes', hok⟩ := ClusterConfig.acceptable_iff.mp hfit
        obtain rfl := hashes_unique hok hhashes
        exact .inl ⟨[], config, rest, hashes, rfl, hfit, hnone, hok, hsame⟩

/-- The commands that wait are obeyed in order, and every configuration is taken over whole or not at
all. Nothing else of the loop changes but what a reset clears. -/
theorem applyCommands_effects (l : ControlLoop) (files : FileStore) :
    (∀ l', Effects files { l with commands := [] } l.commands l' ↔ l' = l.applyCommands files) ∧
      Spared l (l.applyCommands files) ∧
      (.resetBreaker ∉ l.commands →
        (l.applyCommands files).breaker.tripped = l.breaker.tripped) ∧
      ((∃ before config after hashes, l.commands = before ++ .reconfigure config :: after ∧
          config.Acceptable files l.config.clusterName ∧
          (∀ config', .reconfigure config' ∈ after →
            ¬ config'.Acceptable files l.config.clusterName) ∧
          hashesFor files config = .ok hashes ∧
          (l.applyCommands files).settings = .of config hashes) ∨
        ((∀ config, .reconfigure config ∈ l.commands →
            ¬ config.Acceptable files l.config.clusterName) ∧
          (l.applyCommands files).settings = l.settings)) := by
  have heffects : Effects files { l with commands := [] } l.commands (l.applyCommands files) :=
    effects_iff.mpr rfl
  refine ⟨fun l' => effects_iff, ?_, heffects.tripped_eq, heffects.settings_eq⟩
  have hspared := heffects.spared
  exact ⟨hspared.tainted, hspared.updaters, hspared.finished, hspared.states, hspared.records,
    hspared.demand, hspared.ticks, hspared.launched, hspared.terminated, hspared.updateFailures,
    hspared.totalFailures⟩

end ControlLoop

end ClusterScaler
