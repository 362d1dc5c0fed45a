import ClusterScaler.Proofs.Load.Records
import ClusterScaler.Proofs.Tick.Begin
import ClusterScaler.Proofs.Tick.Success

/-!
# What a loop remembers about nodes

A node counts as stale or tainted after a tick only if it did before and is still there. And a
tick that starts with nothing to merge begins with what the one before it left.
-/

set_option autoImplicit false

namespace ClusterScaler

namespace LoadStore

variable {α : Type} {s : LoadStore α} {id : NodeId} {now : Nat}

/-- A node whose clock starts now is not stale, and the others are as before. -/
theorem isStale_of_markActive {node : NodeId} (h : (s.markActive node now).isStale id now = true) :
    s.isStale id now = true := by
  unfold markActive at h
  split at h
  · rw [isStale_eq_true_iff] at h ⊢
    obtain ⟨l, hl, hstale⟩ := h
    have hlookup : (s.records.insert node (NodeLoad.seeded now)).get? id = some l := hl
    rw [Table.get?_insert] at hlookup
    split at hlookup
    · cases hlookup
      have hfresh : now - (NodeLoad.seeded now : NodeLoad α).lastHeartbeat = 0 := Nat.sub_self now
      dsimp only at hstale
      omega
    · exact ⟨l, hlookup, hstale⟩
  · exact h

theorem isStale_of_prune {live : List NodeId} (h : (s.prune live).1.isStale id now = true) :
    id ∈ live ∧ s.isStale id now = true := by
  rw [isStale_eq_true_iff] at h ⊢
  obtain ⟨l, hl, hstale⟩ := h
  rw [get?_prune] at hl
  split at hl
  · next hlive => exact ⟨hlive, l, hl, hstale⟩
  · cases hl

theorem isStale_of_remove {node : NodeId} (h : (s.remove node).isStale id now = true) :
    id ≠ node ∧ s.isStale id now = true := by
  rw [isStale_eq_true_iff] at h ⊢
  obtain ⟨l, hl, hstale⟩ := h
  rw [get?_remove] at hl
  split at hl
  · cases hl
  · next hne => exact ⟨hne, l, hl, hstale⟩

theorem isStale_of_foldl_remove {nodes : List NodeId}
    (h : (nodes.foldl remove s).isStale id now = true) : id ∉ nodes ∧ s.isStale id now = true := by
  induction nodes generalizing s with
  | nil => exact ⟨List.not_mem_nil, h⟩
  | cons node rest ih =>
    rw [List.foldl_cons] at h
    obtain ⟨hrest, hstep⟩ := ih h
    obtain ⟨hne, hstale⟩ := isStale_of_remove hstep
    refine ⟨?_, hstale⟩
    intro hmem
    rcases List.mem_cons.mp hmem with heq | hmem
    · exact hne heq
    · exact hrest hmem

end LoadStore

namespace ControlLoop

variable {l l' : ControlLoop} {id : NodeId} {now : Nat} {nodes : List NodeRecord}

/-- A node is healthy if an updater is at work on it, or else if it has hashes to go by, carries the
launch hash, and is neither tainted, nor tagged as failed, nor stale. -/
theorem forcedReason_eq_none_iff {n : NodeRecord} :
    l.forcedReason now n = none ↔ l.isUpdating n.id = true ∨
      ∃ h, l.hashesFor? n = some h ∧ n.id ∉ l.tainted ∧
        n.tags.get? Tags.nodeStatus ≠ some BootstrapStatus.updateFailed.text ∧
          n.tags.get? Tags.launchConfig = some h.launch.hex ∧
            l.loads.isStale n.id now = false := by
  unfold forcedReason
  cases hupdating : l.isUpdating n.id with
  | true => simp
  | false =>
    cases hhashes : l.hashesFor? n with
    | none => simp
    | some h =>
      by_cases htainted : n.id ∈ l.tainted
      · simp [htainted]
      · by_cases hstatus : n.tags.get? Tags.nodeStatus = some BootstrapStatus.updateFailed.text
        · simp [hstatus]
        · by_cases hlaunch : n.tags.get? Tags.launchConfig = some h.launch.hex
          · simp [htainted, hstatus, hlaunch]
          · simp [htainted, hstatus, hlaunch]

/-- A node whose files are behind carries another files hash than its type has. -/
theorem behind?_eq_some {n : NodeRecord} {nodeType : String} {hashes : NodeTypeHashes}
    (h : l.behind? n = some (nodeType, hashes)) :
    n.nodeType? = some nodeType ∧ l.hashes.get? nodeType = some hashes ∧
      n.tags.get? Tags.fileSync ≠ some hashes.files.hex := by
  unfold behind? at h
  split at h
  · cases h
  · obtain ⟨t, ht, hrest⟩ := Option.bind_eq_some_iff.mp h
    obtain ⟨hs, hhs, hrest⟩ := Option.bind_eq_some_iff.mp hrest
    split at hrest
    · cases hrest
    · next hnot =>
      cases hrest
      refine ⟨ht, hhs, fun hfiles => hnot ?_⟩
      simp [hfiles]

/-- What is launched concerns the count of launches and the breaker only. -/
theorem mergeLaunch_eq (sum : TickSummary) (l : ControlLoop) (ended : LaunchEnd) :
    ∃ launched breaker, (mergeLaunch (sum, l) ended).2 = { l with launched, breaker } := by
  cases ended with
  | panicked => exact ⟨_, _, rfl⟩
  | reported r =>
    unfold mergeLaunch countLaunched
    dsimp only
    split <;> split <;> exact ⟨_, _, rfl⟩

/-- A node that is not healthy has to go. -/
theorem mem_doomed_of_forced {n : NodeRecord} (hn : n ∈ nodes) (h : l.forcedReason now n ≠ none) :
    n.id ∈ (l.planTick now nodes).doomed :=
  List.mem_append_left _ (List.mem_map.mpr
    ⟨n, List.mem_filter.mpr ⟨hn, Option.isSome_iff_ne_none.mpr h⟩, rfl⟩)

/-- A tainted node without an updater in flight has to go. -/
theorem mem_doomed_of_tainted {n : NodeRecord} (hn : n ∈ nodes) (hidle : l.isUpdating n.id = false)
    (htainted : n.id ∈ l.tainted) : n.id ∈ (l.planTick now nodes).doomed := by
  refine mem_doomed_of_forced hn fun hnone => ?_
  rcases forcedReason_eq_none_iff.mp hnone with hbusy | ⟨_, _, hfree, _⟩
  · rw [hidle] at hbusy
    cases hbusy
  · exact hfree htainted

/-- A stale node without an updater in flight has to go. -/
theorem mem_doomed_of_stale {n : NodeRecord} (hn : n ∈ nodes) (hidle : l.isUpdating n.id = false)
    (hstale : l.loads.isStale n.id now = true) : n.id ∈ (l.planTick now nodes).doomed := by
  refine mem_doomed_of_forced hn fun hnone => ?_
  rcases forcedReason_eq_none_iff.mp hnone with hbusy | ⟨_, _, _, _, _, hfresh⟩
  · rw [hidle] at hbusy
    cases hbusy
  · rw [hstale] at hfresh
    cases hfresh

/-- A node is stale to the loop that plans only if it was read and was stale before. -/
theorem isStale_of_takeIn (h : (l.takeIn nodes now).loads.isStale id now = true) :
    id ∈ nodes.map (·.id) ∧ l.loads.isStale id now = true := by
  have hfold : ∀ (rest : List NodeRecord) (s : LoadStore Float),
      (rest.foldl (fun loads n =>
        if (l.observe nodes).states.get? n.id == some .ready then loads.markActive n.id now
        else loads) s).isStale id now = true → s.isStale id now = true := by
    intro rest
    induction rest with
    | nil => exact fun s h => h
    | cons n rest ih =>
      intro s h
      rw [List.foldl_cons] at h
      have hstep := ih _ h
      split at hstep
      · exact LoadStore.isStale_of_markActive hstep
      · exact hstep
  exact LoadStore.isStale_of_prune (hfold nodes _ h)

theorem isStale_of_removeAll {gone : List NodeId}
    (h : (l.removeAll gone).loads.isStale id now = true) :
    id ∉ gone ∧ l.loads.isStale id now = true :=
  LoadStore.isStale_of_foldl_remove h

theorem mem_tainted_takeIn_iff :
    id ∈ (l.takeIn nodes now).tainted ↔ id ∈ l.tainted ∧ id ∈ nodes.map (·.id) := by
  change id ∈ l.tainted.filter (nodes.map (·.id)).contains ↔ _
  rw [List.mem_filter, List.contains_iff_mem]

theorem mem_tainted_removeAll_iff {gone : List NodeId} :
    id ∈ (l.removeAll gone).tainted ↔ id ∈ l.tainted ∧ id ∉ gone := by
  change id ∈ l.tainted.filter (fun id => !gone.contains id) ↔ _
  rw [List.mem_filter]
  simp

/-- If nothing is taken out of the pool, no updater leaves it. -/
theorem isUpdating_collect {p : UpdaterPool} {time : Duration} (h : (p.collect time).1 = [])
    (hid : p.isUpdating id = true) : (p.collect time).2.isUpdating id = true := by
  rw [UpdaterPool.isUpdating_eq_true_iff] at hid ⊢
  obtain ⟨slot, hslot⟩ := hid
  have hnone : (p.slots.filter (fun _ s => s.isDue time)).entries = [] :=
    List.map_eq_nil_iff.mp h
  have hkept : slot.isDue time = false := by
    cases hdue : slot.isDue time with
    | false => rfl
    | true =>
      have hfound : (p.slots.filter (fun _ s => s.isDue time)).get? id = some slot := by
        rw [Table.get?_filter, hslot, Option.filter_some, if_pos hdue]
      rw [Table.get?_eq_some_iff, hnone] at hfound
      cases hfound
  refine ⟨slot, ?_⟩
  unfold UpdaterPool.collect
  rw [Table.get?_filter, hslot, Option.filter_some, if_pos (by simp [hkept])]

/-- A tick that finds no command and no outcome goes to the provider with the loop as it was. -/
theorem keeps_begun (hcommands : l.commands = []) (hfinished : l.finished = [])
    {time : Duration} (hcollected : (l.updaters.collect time).1 = []) (files : FileStore) :
    l.Keeps (l.begun files now time).2 := by
  have hbegin : l.beginTick files = { l with
      ticks := l.ticks + 1, breaker := l.breaker.advance (l.ticks + 1), commands := [] } := by
    unfold beginTick applyCommands
    dsimp only
    rw [hcommands]
    rfl
  have houtcomes : l.finished ++ (l.updaters.collect time).1 = [] := by
    rw [hfinished, hcollected]
    rfl
  have hbegun : (l.begun files now time).2 = { l with
      ticks := l.ticks + 1, breaker := l.breaker.advance (l.ticks + 1), commands := []
      updaters := (l.updaters.collect time).2, finished := [] } := by
    unfold begun mergeUpdates
    rw [hbegin]
    dsimp only
    rw [houtcomes]
    rfl
  rw [hbegun]
  exact ⟨rfl, rfl, rfl, rfl, hcommands.symm, hfinished.symm, rfl, rfl,
    fun id hid => isUpdating_collect hcollected hid⟩

/-- A tick goes to the provider with all commands applied and all outcomes merged. -/
theorem begun_commands_finished (l : ControlLoop) (files : FileStore) (now : Nat)
    (time : Duration) :
    (l.begun files now time).2.commands = [] ∧ (l.begun files now time).2.finished = [] := by
  obtain ⟨_, _, _, _, hbegun⟩ := l.begun_eq files now time
  rw [hbegun]
  exact ⟨l.commands_beginTick files, rfl⟩

end ControlLoop

end ClusterScaler
