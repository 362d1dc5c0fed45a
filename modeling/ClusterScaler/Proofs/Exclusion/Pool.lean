import ClusterScaler.Proofs.Table.Lookup
import ClusterScaler.Update.Pool

/-!
# The pool and the updaters under way

An updater is under way from its start until its end has been noted in the pool. The pool tracks
the updaters under way if each node has at most one, and if the slot of a node with one is open.
Every operation of the pool keeps track of what happens to the updaters.
-/

set_option autoImplicit false

namespace ClusterScaler

/-- How many updaters of each node are under way. -/
abbrev Flights := NodeId → Nat

namespace Flights

/-- One more updater of a node is under way. -/
def start (f : Flights) (node : NodeId) : Flights := fun n => if n = node then f n + 1 else f n

/-- No updater of these nodes is under way any more. -/
def stop (f : Flights) (nodes : List NodeId) : Flights := fun n => if n ∈ nodes then 0 else f n

/-- How many of these ends are those of a node's updaters. -/
def ends (ended : List (NodeId × UpdaterEnd)) : Flights :=
  fun n => ended.countP (fun e => e.1 = n)

end Flights

namespace UpdaterPool

/-- At most one updater of a node is under way, and then the slot of the node is open. -/
def Tracks (p : UpdaterPool) (f : Flights) : Prop :=
  ∀ node, f node ≤ 1 ∧
    (0 < f node → ∃ slot, p.slots.get? node = some slot ∧ slot.ended = none)

theorem isUpdating_eq_true_iff {p : UpdaterPool} {node : NodeId} :
    p.isUpdating node = true ↔ ∃ slot, p.slots.get? node = some slot := by
  unfold isUpdating Table.contains
  rw [Option.isSome_iff_exists]

theorem isUpdating_eq_false_iff {p : UpdaterPool} {node : NodeId} :
    p.isUpdating node = false ↔ p.slots.get? node = none := by
  unfold isUpdating Table.contains
  rw [Option.isSome_eq_false_iff, Option.isNone_iff_eq_none]

theorem Tracks.eq_zero {p : UpdaterPool} {f : Flights} {node : NodeId} (h : p.Tracks f)
    (hfree : p.isUpdating node = false) : f node = 0 := by
  rw [isUpdating_eq_false_iff] at hfree
  rcases Nat.eq_zero_or_pos (f node) with hzero | hpos
  · exact hzero
  · obtain ⟨slot, hslot, -⟩ := (h node).2 hpos
    rw [hfree] at hslot
    cases hslot

theorem complete_eq {p : UpdaterPool} {node : NodeId} {slot : UpdaterSlot} (e : UpdaterEnd)
    (hslot : p.slots.get? node = some slot) : p.complete node e =
      { p with slots := p.slots.insert node { slot with ended := some e } } := by
  unfold complete
  rw [hslot]

theorem get?_complete_self {p : UpdaterPool} {node : NodeId} {slot : UpdaterSlot} (e : UpdaterEnd)
    (hslot : p.slots.get? node = some slot) :
    (p.complete node e).slots.get? node = some { slot with ended := some e } := by
  rw [complete_eq e hslot]
  exact Table.get?_insert_self

theorem get?_complete_of_ne {p : UpdaterPool} {node n : NodeId} {e : UpdaterEnd} (h : n ≠ node) :
    (p.complete node e).slots.get? n = p.slots.get? n := by
  unfold complete
  split
  · exact Table.get?_insert_of_ne h
  · rfl

theorem isUpdating_complete {p : UpdaterPool} {node n : NodeId} {e : UpdaterEnd} :
    (p.complete node e).isUpdating n = p.isUpdating n := by
  by_cases h : n = node
  · subst h
    unfold complete
    split
    · next slot hslot =>
      have hnew : ({ p with slots := p.slots.insert n { slot with ended := some e } } :
          UpdaterPool).isUpdating n = true :=
        isUpdating_eq_true_iff.mpr ⟨_, Table.get?_insert_self⟩
      rw [hnew, isUpdating_eq_true_iff.mpr ⟨slot, hslot⟩]
    · rfl
  · unfold isUpdating Table.contains
    rw [get?_complete_of_ne h]

theorem get?_completeAll_of_notMem {ended : List (NodeId × UpdaterEnd)} {p : UpdaterPool}
    {n : NodeId} (h : ∀ e ∈ ended, e.1 ≠ n) :
    (p.completeAll ended).slots.get? n = p.slots.get? n := by
  induction ended generalizing p with
  | nil => rfl
  | cons e rest ih =>
    have hne : n ≠ e.1 := (h e List.mem_cons_self).symm
    have hrest : ((p.complete e.1 e.2).completeAll rest).slots.get? n =
        (p.complete e.1 e.2).slots.get? n :=
      ih (fun e' he' => h e' (List.mem_cons_of_mem _ he'))
    unfold completeAll
    rw [List.foldl_cons]
    unfold completeAll at hrest
    rw [hrest, get?_complete_of_ne hne]

theorem isUpdating_completeAll {ended : List (NodeId × UpdaterEnd)} {p : UpdaterPool}
    {n : NodeId} : (p.completeAll ended).isUpdating n = p.isUpdating n := by
  induction ended generalizing p with
  | nil => rfl
  | cons e rest ih =>
    unfold completeAll at ih ⊢
    rw [List.foldl_cons, ih, isUpdating_complete]

/-- The pool keeps track when it is told which updaters ended. -/
theorem Tracks.completeAll {p : UpdaterPool} {f f' : Flights}
    {ended : List (NodeId × UpdaterEnd)} (h : p.Tracks f)
    (hends : ∀ n, f' n + Flights.ends ended n = f n) : (p.completeAll ended).Tracks f' := by
  intro n
  have hn := hends n
  have hle := (h n).1
  refine ⟨by omega, ?_⟩
  intro hpos
  obtain ⟨slot, hslot, hopen⟩ := (h n).2 (by omega)
  have hnone : Flights.ends ended n = 0 := by omega
  unfold Flights.ends at hnone
  rw [List.countP_eq_zero] at hnone
  refine ⟨slot, ?_, hopen⟩
  rw [get?_completeAll_of_notMem, hslot]
  intro e he
  simpa using hnone e he

theorem mem_overdue_iff {p : UpdaterPool} {time : Duration} {node : NodeId} :
    node ∈ p.overdue time ↔ ∃ slot, p.slots.get? node = some slot ∧ slot.ended = none ∧
      slot.isOverdue time = true := by
  unfold overdue
  rw [Table.mem_keys_iff, Table.get?_filter]
  cases p.slots.get? node <;> simp [Option.filter]

/-- A collection leaves what is not due. -/
theorem get?_collect {p : UpdaterPool} {time : Duration} {node : NodeId} :
    (p.collect time).2.slots.get? node =
      (p.slots.get? node).filter (fun slot => !slot.isDue time) := Table.get?_filter

/-- Once the overdue updaters are stopped, the pool keeps track when what has ended or overrun is
taken out. -/
theorem Tracks.collect {p : UpdaterPool} {f : Flights} {time : Duration} (h : p.Tracks f) :
    (p.collect time).2.Tracks (f.stop (p.overdue time)) := by
  intro n
  have hn := h n
  unfold Flights.stop
  split
  · exact ⟨Nat.zero_le 1, fun hpos => absurd hpos (Nat.lt_irrefl 0)⟩
  · next hnot =>
    refine ⟨hn.1, ?_⟩
    intro hpos
    obtain ⟨slot, hslot, hopen⟩ := hn.2 hpos
    -- an open slot that is due would have been overdue
    have hkept : slot.isDue time = false := by
      rw [mem_overdue_iff] at hnot
      unfold UpdaterSlot.isDue
      rw [hopen, Option.isSome_none, Bool.false_or, Bool.eq_false_iff]
      exact fun hover => hnot ⟨slot, hslot, hopen, hover⟩
    refine ⟨slot, ?_, hopen⟩
    rw [get?_collect, hslot, Option.filter_some, hkept]
    rfl

/-- What is taken out of the pool had a slot, and leaves none. -/
theorem isUpdating_of_mem_collect {p : UpdaterPool} {time : Duration} {o : UpdateOutcome}
    (h : o ∈ (p.collect time).1) :
    p.isUpdating o.node = true ∧ (p.collect time).2.isUpdating o.node = false := by
  obtain ⟨⟨node, slot⟩, hentry, rfl⟩ := List.mem_map.mp h
  have hdue : (p.slots.filter (fun _ s => s.isDue time)).get? node = some slot :=
    Table.get?_eq_some_iff.mpr hentry
  rw [Table.get?_filter, Option.filter_eq_some_iff] at hdue
  refine ⟨isUpdating_eq_true_iff.mpr ⟨slot, hdue.1⟩, isUpdating_eq_false_iff.mpr ?_⟩
  change (p.slots.filter (fun _ s => !s.isDue time)).get? node = none
  rw [Table.get?_filter, hdue.1, Option.filter_some, if_neg (by simpa using hdue.2)]

theorem isUpdating_of_collect {p : UpdaterPool} {time : Duration} {n : NodeId}
    (h : (p.collect time).2.isUpdating n = true) : p.isUpdating n = true := by
  rw [isUpdating_eq_true_iff] at h ⊢
  obtain ⟨slot, hslot⟩ := h
  unfold collect at hslot
  rw [Table.get?_filter, Option.filter_eq_some_iff] at hslot
  exact ⟨slot, hslot.1⟩

theorem isUpdating_of_mem_drain {p : UpdaterPool} {time : Duration} {o : UpdateOutcome}
    (h : o ∈ (p.drain time).1) : p.isUpdating o.node = true := by
  obtain ⟨⟨node, slot⟩, hentry, hended⟩ := List.mem_filterMap.mp h
  obtain ⟨e, -, rfl⟩ := Option.map_eq_some_iff.mp hended
  exact isUpdating_eq_true_iff.mpr ⟨slot, Table.get?_eq_some_iff.mpr hentry⟩

/-- An updater is turned away if its node has one in flight. -/
theorem dispatch?_eq_none_iff {p : UpdaterPool} {u : Update} {time : Duration} :
    p.dispatch? u time = none ↔ p.isUpdating u.request.node = true := by
  unfold dispatch?
  split
  · next hupdating => simp [hupdating]
  · next hfree => simp [hfree]

/-- An updater is accepted only for a node without a slot, and then its slot is open and the other
slots are as before. -/
theorem dispatch?_eq_some {p p' : UpdaterPool} {u : Update} {time : Duration}
    (h : p.dispatch? u time = some p') :
    p.isUpdating u.request.node = false ∧
      (∃ slot, p'.slots.get? u.request.node = some slot ∧ slot.ended = none) ∧
      ∀ n, n ≠ u.request.node → p'.slots.get? n = p.slots.get? n := by
  unfold dispatch? at h
  split at h
  · cases h
  · next hfree =>
    cases h
    refine ⟨by simpa using hfree, ⟨_, Table.get?_insert_self, rfl⟩, ?_⟩
    intro n hne
    exact Table.get?_insert_of_ne hne

theorem isUpdating_of_dispatch {p p' : UpdaterPool} {u : Update} {time : Duration} {node : NodeId}
    (h : p.dispatch? u time = some p') (hnode : p.isUpdating node = true) :
    p'.isUpdating node = true := by
  obtain ⟨hfree, -, hothers⟩ := dispatch?_eq_some h
  have hne : node ≠ u.request.node := by
    intro heq
    rw [heq, hfree] at hnode
    cases hnode
  rw [isUpdating_eq_true_iff] at hnode ⊢
  rw [hothers node hne]
  exact hnode

/-- After an updater was accepted, its node has one in flight besides those that had one. -/
theorem isUpdating_dispatch {p p' : UpdaterPool} {u : Update} {time : Duration}
    (h : p.dispatch? u time = some p') (n : NodeId) :
    p'.isUpdating n = (decide (n = u.request.node) || p.isUpdating n) := by
  obtain ⟨-, ⟨slot, hslot, -⟩, hothers⟩ := dispatch?_eq_some h
  by_cases hn : n = u.request.node
  · subst hn
    simp [isUpdating, Table.contains, hslot]
  · simp [isUpdating, Table.contains, hothers n hn, hn]

/-- The pool keeps track when it accepts an updater that has not been started yet. -/
theorem Tracks.dispatch {p p' : UpdaterPool} {f : Flights} {u : Update} {time : Duration}
    (h : p.Tracks f) (hdispatch : p.dispatch? u time = some p') : p'.Tracks f := by
  obtain ⟨hfree, -, hothers⟩ := dispatch?_eq_some hdispatch
  have hzero := h.eq_zero hfree
  intro n
  by_cases hn : n = u.request.node
  · subst hn
    rw [hzero]
    exact ⟨Nat.zero_le 1, fun hpos => absurd hpos (Nat.lt_irrefl 0)⟩
  · rw [hothers n hn]
    exact h n

/-- The pool keeps track when an updater starts whose slot waits for it. -/
theorem Tracks.start {p : UpdaterPool} {f : Flights} {node : NodeId} (h : p.Tracks f)
    (hzero : f node = 0) (hslot : ∃ slot, p.slots.get? node = some slot ∧ slot.ended = none) :
    p.Tracks (f.start node) := by
  intro n
  unfold Flights.start
  split
  · next heq =>
    subst heq
    rw [hzero]
    exact ⟨Nat.le_refl 1, fun _ => hslot⟩
  · exact h n

/-- The pool without slots tracks that nothing is under way. -/
theorem tracks_of_forall_eq_zero {p : UpdaterPool} {f : Flights} (h : ∀ n, f n = 0) :
    p.Tracks f := by
  intro n
  rw [h n]
  exact ⟨Nat.zero_le 1, fun hpos => absurd hpos (Nat.lt_irrefl 0)⟩

/-- Once the updaters of all its slots are stopped, nothing that a pool tracked is under way. -/
theorem Tracks.stop_keys {p : UpdaterPool} {f : Flights} (h : p.Tracks f) (n : NodeId) :
    f.stop p.slots.keys n = 0 := by
  unfold Flights.stop
  split
  · rfl
  · next hnot =>
    apply h.eq_zero
    rw [isUpdating_eq_false_iff]
    rw [Table.mem_keys_iff] at hnot
    simpa using hnot

end UpdaterPool

end ClusterScaler
