import ClusterScaler.Proofs.Exclusion.Delivery
import Mathlib.Data.List.Nodup

/-!
# Calls of a pool

A pool accepts updaters, is told of their ends, collects them and waits for them, in any order and at
any times. A collection or a wait may also be taken apart: between the moment when a collection singles
an updater out and the moment when it takes it out of the pool, time may pass and updaters may come to
their ends, and so they may while all of them are waited for. In one piece or not, what such a call does
is to take updaters out of the pool one after the other.
-/

set_option autoImplicit false

namespace ClusterScaler

namespace Crew

variable {grace : Duration} {h events : List PoolEvent} {c c' : Crew}
  {es : List (NodeId × UpdaterSlot)}

/-- Take updaters out of the pool in turn. -/
def takeOutAll (c : Crew) (es : List (NodeId × UpdaterSlot)) : Crew :=
  es.foldl (fun c e => c.takeOut e.1 e.2) c

/-- What happens when updaters are taken out of the pool in turn. -/
def leavesAll (time : Duration) (es : List (NodeId × UpdaterSlot)) : List PoolEvent :=
  es.flatMap (fun e => e.2.leaves e.1 time)

theorem takeOutAll_cons (e : NodeId × UpdaterSlot) :
    c.takeOutAll (e :: es) = (c.takeOut e.1 e.2).takeOutAll es := rfl

theorem leavesAll_cons (time : Duration) (e : NodeId × UpdaterSlot) :
    leavesAll time (e :: es) = e.2.leaves e.1 time ++ leavesAll time es := rfl

theorem get?_takeOutAll (n : NodeId) : (c.takeOutAll es).pool.slots.get? n =
    if n ∈ es.map (·.1) then none else c.pool.slots.get? n := by
  induction es generalizing c with
  | nil => rfl
  | cons e rest ih =>
    rw [takeOutAll_cons, ih, get?_takeOut, List.map_cons]
    by_cases hmem : n ∈ rest.map (·.1)
    · rw [if_pos hmem, if_pos (List.mem_cons_of_mem _ hmem)]
    · by_cases heq : n = e.1
      · rw [if_neg hmem, if_pos heq, if_pos (heq ▸ List.mem_cons_self)]
      · rw [if_neg hmem, if_neg heq, if_neg]
        exact fun hn => (List.mem_cons.mp hn).elim heq hmem

/-- Apart from the slots and what runs, nothing changes when updaters are taken out. -/
theorem takeOutAll_eq (es : List (NodeId × UpdaterSlot)) (c : Crew) :
    c.takeOutAll es = { c with
      pool := { c.pool with slots := (c.takeOutAll es).pool.slots }
      running := (c.takeOutAll es).running } := by
  induction es generalizing c with
  | nil => rfl
  | cons e rest ih => exact ih (c.takeOut e.1 e.2)

/-- What is left in the pool when all updaters of a kind have been taken out. -/
theorem slots_takeOutAll (p : NodeId → UpdaterSlot → Bool) :
    (c.takeOutAll (c.pool.slots.filter p).entries).pool.slots =
      c.pool.slots.filter (fun n s => !p n s) := by
  refine Table.ext_get? fun n => ?_
  have hmem : n ∈ (c.pool.slots.filter p).entries.map (·.1) ↔
      ((c.pool.slots.get? n).filter (p n)).isSome = true := by
    rw [← Table.get?_filter]
    exact Table.mem_keys_iff
  rw [get?_takeOutAll, Table.get?_filter]
  cases hslot : c.pool.slots.get? n with
  | none => exact ite_self _
  | some slot =>
    rw [hslot, Option.filter_some] at hmem
    rw [Option.filter_some]
    cases hp : p n slot with
    | true => exact (if_pos (hmem.mpr (by rw [hp]; rfl)))
    | false => exact (if_neg (fun hn => by simpa [hp] using hmem.mp hn))

/-- Updaters that a table holds, none of them twice. -/
structure Held (slots : Table NodeId UpdaterSlot) (es : List (NodeId × UpdaterSlot)) : Prop where
  nodup : (es.map (·.1)).Nodup
  held : ∀ e ∈ es, slots.get? e.1 = some e.2

theorem held_filter (slots : Table NodeId UpdaterSlot) (p : NodeId → UpdaterSlot → Bool) :
    Held slots (slots.filter p).entries := by
  refine ⟨(slots.filter p).keys_nodup, fun e he => ?_⟩
  exact Table.get?_eq_some_iff.mpr ((List.mem_filter.mp he).1)

theorem Held.tail {slots : Table NodeId UpdaterSlot} {e : NodeId × UpdaterSlot}
    (hheld : Held slots (e :: es)) : Held (slots.erase e.1) es := by
  obtain ⟨hnew, hnodup⟩ := List.nodup_cons.mp hheld.nodup
  refine ⟨hnodup, fun e' he' => ?_⟩
  have hne : e'.1 ≠ e.1 := fun heq => hnew (List.mem_map.mpr ⟨e', he', heq⟩)
  rw [Table.get?_erase, if_neg hne]
  exact hheld.held e' (List.mem_cons_of_mem _ he')

/-- Updaters that are due are taken out of the pool in turn. -/
theorem Sound.takeOutAll (hsound : c.Sound grace h) (hheld : Held c.pool.slots es)
    (hdue : ∀ e ∈ es, e.2.isDue c.time = true) :
    Sound grace (h ++ leavesAll c.time es) (c.takeOutAll es) := by
  induction es generalizing c h with
  | nil =>
    unfold leavesAll
    rw [List.flatMap_nil, List.append_nil]
    exact hsound
  | cons e rest ih =>
    have hfirst : Sound grace (h ++ e.2.leaves e.1 c.time) (c.takeOut e.1 e.2) :=
      hsound.takeOut (hheld.held e List.mem_cons_self) (hdue e List.mem_cons_self)
        (List.Subset.refl _)
    rw [takeOutAll_cons, leavesAll_cons, ← List.append_assoc]
    exact ih hfirst hheld.tail fun e' he' => hdue e' (List.mem_cons_of_mem _ he')

/-- The running updaters are known by the open slots. -/
theorem Sound.rename (hsound : c.Sound grace h) {running : List NodeId} (hnodup : running.Nodup)
    (hrunning : ∀ node, node ∈ running ↔
      ∃ slot, c.pool.slots.get? node = some slot ∧ slot.ended = none) :
    Sound grace h { c with running } :=
  ⟨hsound.patience, hnodup, hrunning, hsound.due, hsound.lives, hsound.count⟩

end Crew

/-- What tells of an outcome of a collection: an updater that has overrun is stopped and reported, one
that has ended is reported. -/
def UpdaterPool.tells (p : UpdaterPool) (time : Duration) (o : UpdateOutcome) : List PoolEvent :=
  (if o.node ∈ p.overdue time then [.aborted o.node] else []) ++ [.reported o time]

namespace Crew

variable {grace : Duration} {h events : List PoolEvent} {c c' : Crew}

theorem leavesAll_due (p : UpdaterPool) (time : Duration) :
    leavesAll time (p.slots.filter (fun _ s => s.isDue time)).entries =
      (p.collect time).1.flatMap (p.tells time) := by
  unfold leavesAll UpdaterPool.collect
  rw [List.flatMap_map]
  refine List.flatMap_congr fun e he => ?_
  obtain ⟨hentry, hdue⟩ := List.mem_filter.mp he
  have hslot : p.slots.get? e.1 = some e.2 := Table.get?_eq_some_iff.mpr hentry
  have hstopped : e.1 ∈ p.overdue time ↔ e.2.ended.isNone = true := by
    rw [UpdaterPool.mem_overdue_iff, hslot]
    unfold UpdaterSlot.isDue at hdue
    cases hended : e.2.ended <;> simp_all
  unfold UpdaterSlot.leaves UpdaterPool.tells
  change _ = (if e.1 ∈ p.overdue time then _ else _) ++ _
  simp only [hstopped]
  rfl

theorem leavesAll_ended (p : UpdaterPool) (time : Duration)
    (hended : ∀ e ∈ p.slots.entries, e.2.ended.isSome = true) :
    leavesAll time p.slots.entries = (p.drain time).1.map (.reported · time) := by
  have hreported : ∀ e ∈ p.slots.entries,
      e.2.leaves e.1 time = [.reported (e.2.outcome e.1 time) time] := by
    intro e he
    unfold UpdaterSlot.leaves
    rw [← Option.not_isSome, hended e he]
    rfl
  have houtcomes : (p.drain time).1 = p.slots.entries.map (fun e => e.2.outcome e.1 time) := by
    rw [← List.filterMap_eq_map]
    refine List.filterMap_congr fun e he => ?_
    obtain ⟨ended, heq⟩ := Option.isSome_iff_exists.mp (hended e he)
    simp [UpdaterSlot.outcome, heq]
  unfold leavesAll
  rw [List.flatMap_congr hreported, houtcomes, List.map_map, List.map_eq_flatMap]
  rfl

/-- What may happen to a pool, with the events that it is told by. -/
inductive Step : Crew → List PoolEvent → Crew → Prop where
  | dispatch {c : Crew} {u : Update} {pool : UpdaterPool} :
    c.call = .idle → c.pool.dispatch? u c.time = some pool →
      Step c [.accepted u c.time] { c with pool, running := u.request.node :: c.running }
  /-- An updater is turned away. -/
  | refuse {c : Crew} {u : Update} :
    c.call = .idle → c.pool.dispatch? u c.time = none → Step c [] c
  /-- Some of the running updaters come to their ends, and the pool is told. -/
  | ends {c : Crew} {ends : List (NodeId × UpdaterEnd)} :
    (ends.map (·.1)).Nodup → (∀ e ∈ ends, e.1 ∈ c.running) →
      Step c (ends.map fun e => .ended e.1 e.2)
        { c with
          pool := c.pool.completeAll ends
          running := c.running.filter fun n => n ∉ ends.map (·.1) }
  | passes {c : Crew} {time : Duration} : c.time.nanos ≤ time.nanos → Step c [] { c with time }
  /-- A collection in one piece. The overdue updaters are stopped. -/
  | collect {c : Crew} :
    c.call = .idle → Step c ((c.pool.collect c.time).1.flatMap (c.pool.tells c.time))
      { c with
        pool := (c.pool.collect c.time).2
        running := c.running.filter fun n => n ∉ c.pool.overdue c.time }
  /-- A wait in one piece, when every updater has ended. -/
  | drain {c : Crew} :
    c.call = .idle → c.running = [] →
      Step c ((c.pool.drain c.time).1.map (.reported · c.time))
        { c with pool := (c.pool.drain c.time).2 }
  | collecting {c : Crew} : c.call = .idle → Step c [] { c with call := .collecting [] }
  /-- A collection singles out an updater that is due. -/
  | choose {c : Crew} {chosen : List NodeId} {node : NodeId} {slot : UpdaterSlot} :
    c.call = .collecting chosen → node ∉ chosen → c.pool.slots.get? node = some slot →
      slot.isDue c.time = true → Step c [] { c with call := .collecting (chosen ++ [node]) }
  /-- A collection takes out an updater that it has singled out. -/
  | take {c : Crew} {node : NodeId} {chosen : List NodeId} {slot : UpdaterSlot} :
    c.call = .collecting (node :: chosen) → c.pool.slots.get? node = some slot →
      Step c (slot.leaves node c.time)
        { c.takeOut node slot with call := .collecting chosen }
  | collected {c : Crew} : c.call = .collecting [] → Step c [] { c with call := .idle }
  | awaiting {c : Crew} : c.call = .idle → Step c [] { c with call := .awaiting }
  /-- An updater that is waited for has ended and is taken out. -/
  | join {c : Crew} {node : NodeId} {slot : UpdaterSlot} :
    c.call = .awaiting → c.pool.slots.get? node = some slot → slot.ended.isSome = true →
      Step c (slot.leaves node c.time) (c.takeOut node slot)
  | awaited {c : Crew} :
    c.call = .awaiting → c.pool.inFlight = 0 → Step c [] { c with call := .idle }

/-- What may have happened to a pool since it was made, in order, and what it is like then. -/
inductive Reaches (grace : Duration) : List PoolEvent → Crew → Prop where
  | new (time : Duration) : Reaches grace [] { pool := { grace }, time }
  | step {h events : List PoolEvent} {c c' : Crew} :
    Reaches grace h c → Step c events c' → Reaches grace (h ++ events) c'

/-- Running updaters come to their ends one after the other. -/
theorem Sound.endsAll (hsound : c.Sound grace h) {ends : List (NodeId × UpdaterEnd)}
    (hnodup : (ends.map (·.1)).Nodup) (hrunning : ∀ e ∈ ends, e.1 ∈ c.running) :
    Sound grace (h ++ ends.map fun e => .ended e.1 e.2)
      { c with
        pool := c.pool.completeAll ends
        running := c.running.filter fun n => n ∉ ends.map (·.1) } := by
  induction ends generalizing c h with
  | nil =>
    rw [List.map_nil, List.append_nil]
    rw [show (fun n => decide (n ∉ ([] : List (NodeId × UpdaterEnd)).map (·.1))) = fun _ => true
      from funext fun _ => rfl, List.filter_true]
    exact hsound
  | cons e rest ih =>
    obtain ⟨hnew, hrest⟩ := List.nodup_cons.mp hnodup
    have hfirst := hsound.ends e.2 (hrunning e List.mem_cons_self)
    have hothers := ih hfirst hrest fun e' he' => by
      have hne : e'.1 ≠ e.1 := fun heq => hnew (List.mem_map.mpr ⟨e', he', heq⟩)
      exact (List.mem_erase_of_ne hne).mpr (hrunning e' (List.mem_cons_of_mem _ he'))
    rw [List.append_assoc] at hothers
    refine hothers.rename (hsound.nodup.filter _) fun node => ?_
    rw [← hothers.running]
    simp [hsound.nodup.mem_erase_iff]
    tauto

/-- A collection takes out the updaters that are due. -/
theorem Sound.collect (hsound : c.Sound grace h) :
    Sound grace (h ++ (c.pool.collect c.time).1.flatMap (c.pool.tells c.time))
      { c with
        pool := (c.pool.collect c.time).2
        running := c.running.filter fun n => n ∉ c.pool.overdue c.time } := by
  have htaken := hsound.takeOutAll (held_filter c.pool.slots (fun _ s => s.isDue c.time))
    fun e he => (List.mem_filter.mp he).2
  rw [leavesAll_due, takeOutAll_eq, slots_takeOutAll] at htaken
  refine htaken.rename (hsound.nodup.filter _) fun node => ?_
  rw [List.mem_filter, hsound.running, decide_eq_true_iff, UpdaterPool.mem_overdue_iff,
    Table.get?_filter]
  cases c.pool.slots.get? node with
  | none => simp
  | some slot =>
    -- an open slot is due exactly if it is overdue
    rw [Option.filter_some]
    unfold UpdaterSlot.isDue
    cases hended : slot.ended <;> cases hover : slot.isOverdue c.time <;> simp [hended, hover]

/-- A wait takes out all updaters. -/
theorem Sound.drain (hsound : c.Sound grace h) (hnone : c.running = []) :
    Sound grace (h ++ (c.pool.drain c.time).1.map (.reported · c.time))
      { c with pool := (c.pool.drain c.time).2 } := by
  have hended : ∀ e ∈ c.pool.slots.entries, e.2.ended.isSome = true := by
    intro e he
    rw [← Option.ne_none_iff_isSome]
    intro hopen
    have hrunning := (hsound.running e.1).mpr ⟨e.2, Table.get?_eq_some_iff.mpr he, hopen⟩
    rw [hnone] at hrunning
    cases hrunning
  have hall : c.pool.slots.filter (fun _ _ => true) = c.pool.slots :=
    Table.ext (List.filter_eq_self.mpr fun _ _ => rfl)
  have hempty : c.pool.slots.filter (fun _ _ => !true) = ∅ :=
    Table.ext (List.filter_eq_nil_iff.mpr fun _ _ => Bool.false_ne_true)
  have hheld := held_filter c.pool.slots (fun _ _ => true)
  have hslots := slots_takeOutAll (c := c) (fun _ _ => true)
  rw [hall, hempty] at hslots
  rw [hall] at hheld
  have htaken := hsound.takeOutAll hheld fun e he => Bool.or_eq_true_iff.mpr (.inl (hended e he))
  rw [leavesAll_ended _ _ hended, takeOutAll_eq, hslots] at htaken
  refine htaken.rename hsound.nodup fun node => ?_
  rw [hnone]
  refine ⟨fun hnode => absurd hnode List.not_mem_nil, ?_⟩
  rintro ⟨slot, hslot, -⟩
  cases hslot

/-- Whatever happens to a sound pool leaves it sound. -/
theorem Sound.step (hsound : c.Sound grace h) (hstep : Step c events c') :
    Sound grace (h ++ events) c' := by
  cases hstep with
  | dispatch hidle hpool => exact hsound.dispatch hidle hpool
  | refuse => exact hsound.quiet hsound.due
  | ends hnodup hrunning => exact hsound.endsAll hnodup hrunning
  | passes htime =>
    refine hsound.quiet fun node hnode slot hslot => ?_
    exact UpdaterSlot.isDue_later (hsound.due node hnode slot hslot) htime
  | collect => exact hsound.collect
  | drain _ hnone => exact hsound.drain hnone
  | collecting => exact hsound.quiet fun _ hnode => nomatch hnode
  | choose hcall hnew hslot hdue =>
    refine hsound.quiet fun n hn slot' hslot' => ?_
    rcases List.mem_append.mp hn with hn | hn
    · exact hsound.due n (hcall ▸ hn) slot' hslot'
    · obtain rfl := List.mem_singleton.mp hn
      rw [hslot] at hslot'
      cases hslot'
      exact hdue
  | @take node chosen slot hcall hslot =>
    have hdue := hsound.due node (hcall ▸ List.mem_cons_self) slot hslot
    refine hsound.takeOut hslot hdue ?_
    rw [hcall]
    exact List.subset_cons_self node chosen
  | collected => exact hsound.quiet fun _ hnode => nomatch hnode
  | awaiting => exact hsound.quiet fun _ hnode => nomatch hnode
  | join hcall hslot hended =>
    have hdue : UpdaterSlot.isDue _ c.time = true := Bool.or_eq_true_iff.mpr (.inl hended)
    exact hsound.takeOut hslot hdue (List.Subset.refl _)
  | awaited => exact hsound.quiet fun _ hnode => nomatch hnode

theorem Reaches.sound (hreaches : Reaches grace h c) : Sound grace h c := by
  induction hreaches with
  | new time => exact sound_new grace time
  | step _ hstep ih => exact ih.step hstep

/-- An update of a worker. -/
def ofWorker : Update where
  request := { node := ⟨"a"⟩, nodeType := "worker", mounts := ∅, commands := [], targetHash := ⟨"f"⟩ }

end Crew

end ClusterScaler
