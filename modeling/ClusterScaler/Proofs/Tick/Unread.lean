import ClusterScaler.Proofs.Load.Records
import ClusterScaler.Proofs.Tick.Begin
import ClusterScaler.Proofs.Tick.Memory
import ClusterScaler.Proofs.Updating.Courses

/-!
# Nodes that were listed but not read

A tick passes over a listed node whose tags or state it cannot read, and takes the nodes that it
did read for all there are. So it knows nothing afterwards of a node that it passed over. Before its
reading is complete, a tick forgets nothing.
-/

set_option autoImplicit false

namespace ClusterScaler

open Program

namespace ControlLoop

/-- A loop knows something of a node by itself: the node is tainted, or there is a load record. -/
def Knows (l : ControlLoop) (id : NodeId) : Prop := id ∈ l.tainted ∨ (l.loads.get? id).isSome

/-- A loop has nothing in mind about a node. -/
def Forgets (id : NodeId) (l : ControlLoop) : Prop := id ∉ l.tainted ∧ l.loads.get? id = none

/-- A loop still knows of a node what an earlier one knew of it. -/
structure Remembers (after before : ControlLoop) (id : NodeId) : Prop where
  tainted : id ∈ before.tainted → id ∈ after.tainted
  record : after.loads.get? id = before.loads.get? id

/-- A later loop has the same in mind about all nodes. -/
def Recalls (before after : ControlLoop) : Prop :=
  after.tainted = before.tainted ∧ after.loads = before.loads

/-- Among the outcomes that a tick merges there is a success for a node. -/
def MergesSuccess (l : ControlLoop) (time : Duration) (id : NodeId) : Prop :=
  ∃ o ∈ l.finished ++ (l.updaters.collect time).1, o.node = id ∧ o.result.isOk = true

variable {l : ControlLoop} {id : NodeId} {now : Nat} {time : Duration}

theorem Forgets.remembers_iff {after before : ControlLoop} (h : Forgets id after) :
    after.Remembers before id ↔ ¬ before.Knows id := by
  constructor
  · rintro hremembers (htainted | hrecord)
    · exact h.1 (hremembers.tainted htainted)
    · rw [← hremembers.record, h.2] at hrecord
      cases hrecord
  · intro hunknown
    refine ⟨fun htainted => absurd (.inl htainted) hunknown, ?_⟩
    rw [h.2, eq_comm, ← Option.not_isSome_iff_eq_none]
    exact fun hrecord => hunknown (.inr hrecord)

/-- Once a loop has taken in the nodes that were read, it has nothing in mind about any other. -/
theorem forgets_takeIn {nodes : List NodeRecord} (hunread : id ∉ nodes.map (·.id)) :
    Forgets id (l.takeIn nodes now) := by
  refine ⟨fun htainted => hunread (mem_tainted_takeIn_iff.mp htainted).2, ?_⟩
  have hpruned : ((l.observe nodes).loads.prune (nodes.map (·.id))).1.get? id = none := by
    rw [LoadStore.get?_prune, if_neg hunread]
  -- clocks are started for nodes that were read only
  apply List.foldlRecOn (motive := fun loads : LoadStore Float => loads.get? id = none) nodes
  · exact hpruned
  · intro loads hloads n hn
    have hne : id ≠ n.id := fun heq => hunread (heq ▸ List.mem_map_of_mem hn)
    split
    · rw [LoadStore.get?_markActive, if_neg hne, hloads]
    · exact hloads

theorem Forgets.removeAll (h : Forgets id l) (gone : List NodeId) :
    Forgets id (l.removeAll gone) := by
  refine ⟨fun htainted => h.1 (mem_tainted_removeAll_iff.mp htainted).1, ?_⟩
  have hrecord : (gone.foldl LoadStore.remove l.loads).get? id = none := by
    rw [LoadStore.get?_foldl_remove, h.2, ite_self]
  exact hrecord

/-- No command concerns a load record. -/
theorem get?_loads_obey (files : FileStore) (l : ControlLoop) (c : ControlCommand) :
    (l.obey files c).loads.get? id = l.loads.get? id := by
  rcases obey_cases files l c with heq | ⟨-, heq⟩ | ⟨_, _, -, -, -, heq⟩
  · rw [heq]
  · rw [heq]
    rfl
  · rw [heq]
    rfl

/-- No command that waits concerns a load record. -/
theorem get?_loads_beginTick (l : ControlLoop) (files : FileStore) :
    (l.beginTick files).loads.get? id = l.loads.get? id := by
  refine l.beginTick_induct files (motive := fun l' => l'.loads.get? id = l.loads.get? id) rfl ?_
  intro l' h c _
  exact (get?_loads_obey files l' c).trans h

/-- Merging a success for a node starts its heartbeat clock if there is none, and nothing else that
is merged touches its record. -/
theorem get?_loads_mergeUpdates (l : ControlLoop) (s : TickSummary) :
    (l.MergesSuccess time id → (l.mergeUpdates now time s).2.loads.get? id =
        some ((l.loads.get? id).getD (NodeLoad.seeded now))) ∧
      (¬ l.MergesSuccess time id →
        (l.mergeUpdates now time s).2.loads.get? id = l.loads.get? id) := by
  have hfold : ∀ (outcomes : List UpdateOutcome) (state : TickSummary × ControlLoop),
      ((∃ o ∈ outcomes, o.node = id ∧ o.result.isOk = true) →
        (outcomes.foldl (mergeOutcome now) state).2.loads.get? id =
          some ((state.2.loads.get? id).getD (NodeLoad.seeded now))) ∧
      ((¬ ∃ o ∈ outcomes, o.node = id ∧ o.result.isOk = true) →
        (outcomes.foldl (mergeOutcome now) state).2.loads.get? id = state.2.loads.get? id) := by
    intro outcomes
    induction outcomes with
    | nil => exact fun state => ⟨(fun ⟨o, ho, _⟩ => nomatch ho), fun _ => rfl⟩
    | cons o rest ih =>
      rintro ⟨s', l'⟩
      have hrest := ih (mergeOutcome now (s', l') o)
      -- what the first outcome does to the record of the node
      have hfirst : (mergeOutcome now (s', l') o).2.loads.get? id =
          if o.node = id ∧ o.result.isOk = true then
            some ((l'.loads.get? id).getD (NodeLoad.seeded now))
          else l'.loads.get? id := by
        unfold mergeOutcome
        dsimp only
        cases hresult : o.result with
        | error e => simp [Except.isOk, Except.toBool]
        | ok _ =>
          dsimp only
          rw [LoadStore.get?_markActive]
          simp [Except.isOk, Except.toBool, eq_comm]
      constructor
      · rintro ⟨o', ho', hnode⟩
        rw [List.foldl_cons]
        by_cases hlater : ∃ o ∈ rest, o.node = id ∧ o.result.isOk = true
        · rw [hrest.1 hlater, hfirst]
          split <;> rfl
        · rw [hrest.2 hlater, hfirst]
          rcases List.mem_cons.mp ho' with rfl | ho'
          · rw [if_pos hnode]
          · exact absurd ⟨o', ho', hnode⟩ hlater
      · intro hnone
        have hlater : ¬ ∃ o ∈ rest, o.node = id ∧ o.result.isOk = true :=
          fun ⟨o', ho', hnode⟩ => hnone ⟨o', List.mem_cons_of_mem _ ho', hnode⟩
        rw [List.foldl_cons, hrest.2 hlater, hfirst,
          if_neg fun hnode => hnone ⟨o, List.mem_cons_self, hnode⟩]
  exact hfold _ _

/-- A tick goes to the provider with the heartbeat clock of a node started if a success for the node is
merged, and with its record as it was if none is. -/
theorem get?_loads_begun (l : ControlLoop) (files : FileStore) :
    (l.MergesSuccess time id → (l.begun files now time).2.loads.get? id =
        some ((l.loads.get? id).getD (NodeLoad.seeded now))) ∧
      (¬ l.MergesSuccess time id →
        (l.begun files now time).2.loads.get? id = l.loads.get? id) := by
  obtain ⟨-, hupdaters, hfinished, -⟩ := l.beginTick_same files
  have hsame : (l.beginTick files).MergesSuccess time id ↔ l.MergesSuccess time id := by
    unfold MergesSuccess
    rw [hupdaters, hfinished]
  rw [← hsame, ← l.get?_loads_beginTick files]
  exact (l.beginTick files).get?_loads_mergeUpdates _

/-- When a tick goes to the provider, it remembers a node as long as no success starts the heartbeat
clock of one that has not reported. -/
theorem remembers_begun_iff (l : ControlLoop) (files : FileStore) :
    (l.begun files now time).2.Remembers l id ↔
      (l.loads.get? id).isSome ∨ ¬ l.MergesSuccess time id := by
  obtain ⟨-, -, -, htainted⟩ := l.beginTick_same files
  obtain ⟨hstarted, hkept⟩ := @get?_loads_begun id now time l files
  have hstill : id ∈ l.tainted → id ∈ (l.begun files now time).2.tainted := fun h =>
    mem_tainted_mergeUpdates (.inl (htainted.symm ▸ h))
  constructor
  · intro hremembers
    by_cases hmerges : l.MergesSuccess time id
    · left
      rw [← hremembers.record, hstarted hmerges]
      rfl
    · exact .inr hmerges
  · intro hcases
    refine ⟨hstill, ?_⟩
    by_cases hmerges : l.MergesSuccess time id
    · obtain ⟨load, hload⟩ := Option.isSome_iff_exists.mp (hcases.resolve_right (· hmerges))
      rw [hstarted hmerges, hload, Option.getD_some]
    · exact hkept hmerges

end ControlLoop

namespace Tick

variable {α : Type} {holds : ControlLoop → Prop}

/-- Part of a tick in which a loop keeps a property is left with one that has it. -/
theorem holds_standing {x : TickM α} {l : ControlLoop} {trace : List TickExchange}
    {left : Program TickAsk TickAsk.Reply (α × ControlLoop)}
    (h : x.Meets (asking (holds ·.loop)) (fun _ l' _ => holds l') l ())
    (hbegins : Begins (x.run l) trace left) : holds (standing left) := by
  have hleft := Program.Meets.left h hbegins (follows_asking trace)
  cases left with
  | done r => exact hleft
  | ask a next => exact hleft.1

/-- A property that the ends of updaters leave alone is kept by all that a tick asks meanwhile. -/
theorem kept_asking (hcomplete : ∀ l ended, holds l → holds (l.complete ended)) (q : Question) :
    q.Kept (asking (holds ·.loop)) (fun l _ => holds l) := by
  intro l s h
  refine ⟨h, fun r s' _ => ?_⟩
  cases q with
  | request r => exact hcomplete l _ h
  | awaitLaunch => exact hcomplete l _ h
  | dispatch u => exact h
  | abandon nodes => exact h
  | launch o => exact h

/-- While a tick reads its nodes, it has the same in mind about them. -/
theorem reconcile_recalls (l : ControlLoop) :
    reconcile.Meets (asking (l.Recalls ·.loop)) (fun _ l' _ => l.Recalls l') l () :=
  @frame_reconcile _ (asking (l.Recalls ·.loop)) (fun l' _ => l.Recalls l') l ()
    (fun r _ => kept_asking (fun _ _ h => h) (.request r)) ⟨rfl, rfl⟩

/-- What a loop does not have in mind about a node, it has not in mind after its tick either. -/
theorem afterReconcile_forgets {id : NodeId} {nodes : List NodeRecord}
    (hunread : id ∉ nodes.map (·.id)) (now : Nat) (time : Duration) (sum : TickSummary)
    (l : ControlLoop) :
    (afterReconcile now time nodes sum).Meets (asking (ControlLoop.Forgets id ·.loop))
      (fun _ l' _ => ControlLoop.Forgets id l') l () := by
  rw [afterReconcile_eq, TickM.meets_bind, TickM.meets_modify, TickM.meets_bind, TickM.meets_get]
  have hasked : ∀ q : Question, q.Kept (asking (ControlLoop.Forgets id ·.loop))
      (fun l _ => ControlLoop.Forgets id l) := kept_asking fun _ _ h => h
  have hforgets : ControlLoop.Forgets id (l.takeIn nodes now) :=
    ControlLoop.forgets_takeIn hunread
  refine frame_carryOut ?_ _ now time sum hforgets
  refine ⟨fun r _ => hasked _, hasked _, fun l s h => h, fun l s h => h.removeAll _,
    fun l s sum h => h, fun l s nodeType n o h _ _ s' _ => ⟨h, fun r s'' _ => h⟩, hasked _, ?_,
    fun n _ _ l s nodeType hashes h _ l' s' time head updaters h' _ => ⟨h', fun r s'' _ => h'⟩,
    fun l s survivors departed loads now sum h => h⟩
  intro l s sum ended h
  obtain ⟨launched, breaker, hmerged⟩ := ControlLoop.mergeLaunch_eq sum l ended
  rw [hmerged]
  exact h

end Tick

variable {files : FileStore} {now : Nat} {time : Duration} {before : ControlLoop} {id : NodeId}
  {trace : List TickExchange}
  {left : Program TickAsk TickAsk.Reply (Except LoopError TickSummary × ControlLoop)}

namespace Reading

/-- A node was listed, but its tags or its state could not be read. -/
def Skips (r : Reading files now time before) (id : NodeId) : Prop :=
  r.Lists id ∧ id ∉ r.nodes.map (·.id)

/-- A node that was not read is forgotten from there on. -/
theorem forgets_unread (r : Reading files now time before) (hunread : id ∉ r.nodes.map (·.id))
    (hbegins : Begins ((tick files now time).run before) trace left) (hread : r.Precedes trace) :
    ControlLoop.Forgets id (Tick.standing left) := by
  obtain ⟨rest, rfl⟩ := hread
  obtain ⟨left', hpassing, hstanding⟩ := r.begins_passing hbegins
  rw [hstanding]
  exact Tick.holds_standing (Tick.afterReconcile_forgets hunread now time _ r.loop) hpassing

end Reading

/-- Until it has completed its reading, a tick has in mind what it went to the provider with, if it has
got there. -/
theorem Tick.recalls_unless_read (hbegins : Begins ((tick files now time).run before) trace left)
    (hnone : ∀ r : Reading files now time before, ¬ r.Precedes trace) :
    (trace = [] ∧ standing left = before.beginTick files) ∨
      (trace ≠ [] ∧ (before.begun files now time).2.Recalls (standing left)) := by
  rcases begins_reading hbegins with ⟨rfl, hstanding⟩ | ⟨rest, left', rfl, hreading, hstanding⟩ |
    ⟨r, rest, left', htrace, -, -⟩
  · exact .inl ⟨rfl, hstanding⟩
  · rw [hstanding]
    exact .inr ⟨List.cons_ne_nil _ _, holds_standing (reconcile_recalls _) hreading⟩
  · exact absurd ⟨rest, htrace⟩ (hnone r)

/-- A tick that has not completed its reading has in mind what it began with. -/
theorem Tick.remembers_unless_read (hbegins : Begins ((tick files now time).run before) trace left)
    (hnone : ∀ r : Reading files now time before, ¬ r.Precedes trace) :
    (standing left).Remembers before id ↔
      trace = [] ∨ (before.loads.get? id).isSome ∨ ¬ before.MergesSuccess time id := by
  rcases recalls_unless_read hbegins hnone with ⟨hstart, hstanding⟩ | ⟨hstarted, hrecalls⟩
  · have hsame : (before.beginTick files).Remembers before id :=
      ⟨fun h => (before.beginTick_same files).2.2.2.symm ▸ h, before.get?_loads_beginTick files⟩
    rw [hstanding]
    exact iff_of_true hsame (.inl hstart)
  · have hbegun : (standing left).Remembers before id ↔
        (before.begun files now time).2.Remembers before id := by
      constructor
      · exact fun h => ⟨hrecalls.1 ▸ h.tainted, hrecalls.2 ▸ h.record⟩
      · exact fun h => ⟨hrecalls.1.symm ▸ h.tainted, hrecalls.2.symm ▸ h.record⟩
    rw [hbegun, before.remembers_begun_iff files]
    exact ⟨.inr, fun h => h.resolve_left hstarted⟩

/-- At whatever point a tick is, finished, failed or cut short: once its reading has passed over a
listed node, the node is remembered exactly if there was nothing to remember; until its reading is
complete, everything is remembered, but for a heartbeat clock that a merged success starts. -/
theorem unread_node_remembered_iff
    (hbegins : Begins ((tick files now time).run before) trace left) (id : NodeId) :
    (∀ r : Reading files now time before, r.Precedes trace → r.Skips id →
      ((Tick.standing left).Remembers before id ↔ ¬ before.Knows id)) ∧
    ((∀ r : Reading files now time before, ¬ r.Precedes trace) →
      ((Tick.standing left).Remembers before id ↔
        trace = [] ∨ (before.loads.get? id).isSome ∨ ¬ before.MergesSuccess time id)) := by
  constructor
  · intro r hread hskips
    exact (r.forgets_unread hskips.2 hbegins hread).remembers_iff
  · exact Tick.remembers_unless_read hbegins

/-- Some reading passes over a node that it lists: a provider may fail to tell its tags. -/
theorem Reading.exists_skips (files : FileStore) (now : Nat) (time : Duration)
    (before : ControlLoop) (id : NodeId) : ∃ r : Reading files now time before, r.Skips id := by
  have hlist : Runs (Tick.listing.run (before.begun files now time).2) _
      (.ok [id], (before.begun files now time).2) :=
    runs_bind_iff.mpr ⟨[], _, _, rfl, .done _, runs_retrying (runs_request (.listNodes (.ofList
      [(Tags.clusterName, (before.begun files now time).2.config.clusterName)])) (.ok [id]) _)⟩
  have htags : Runs ((Tick.readNode id).run (before.begun files now time).2) _
      (none, (before.begun files now time).2) :=
    runs_bind_iff.mpr ⟨_, _, [], rfl, runs_retrying_error
      (runs_request (.nodeTags id) (.error (.permanent "down")) _) rfl, .done _⟩
  have hread : Runs ((Tick.readNodes [] [id]).run (before.begun files now time).2) _
      (.ok [], (before.begun files now time).2) :=
    runs_bind_iff.mpr ⟨_, _, [], rfl, htags, .done _⟩
  have hwhole : Runs ((Tick.listing.run (before.begun files now time).2).bind (fun r =>
      (Tick.readListed r.1).run r.2)) _ (.ok [], (before.begun files now time).2) :=
    runs_bind_iff.mpr ⟨_, _, _, rfl, hlist, hread⟩
  exact ⟨⟨[], _, _, hwhole⟩, ⟨[id], _, _, _, rfl, hlist, hread, List.mem_singleton_self id⟩,
    List.not_mem_nil⟩

/-- A loop that has tainted its node `a` and has heard from it. -/
def ControlLoop.ofTainted : ControlLoop :=
  { ofHeadType { maxWorkers := 2 } with
    loads := { records := .ofList [(⟨"a"⟩, ⟨∅, ∅, 1000, 1000⟩)], heartbeatTimeout := 30 }
    tainted := [⟨"a"⟩] }

/-- A tick that lists `a` but cannot read it ends with `a` forgotten. -/
theorem unread_node_forgotten_ofTainted :
    ∃ p : Passage .empty 1000 ⟨0⟩ .ofTainted, p.Skips ⟨"a"⟩ ∧
      ⟨"a"⟩ ∈ ControlLoop.ofTainted.tainted ∧ ⟨"a"⟩ ∉ p.after.tainted ∧
        (ControlLoop.ofTainted.loads.get? ⟨"a"⟩).isSome ∧ p.after.loads.get? ⟨"a"⟩ = none := by
  obtain ⟨r, hskips⟩ := Reading.exists_skips .empty 1000 ⟨0⟩ .ofTainted ⟨"a"⟩
  obtain ⟨p, rfl, -⟩ := Passage.exists_of_reading r (·.question.succeed)
  have hforgets : ControlLoop.Forgets ⟨"a"⟩ p.after :=
    p.forgets_unread hskips.2 p.runs_tick.begins ⟨p.rest, rfl⟩
  exact ⟨p, hskips, List.mem_singleton_self _, hforgets.1, rfl, hforgets.2⟩

/-- That tick does not remember `a`, of which there was something to remember. -/
theorem unread_node_remembered_iff_ofTainted :
    ∃ p : Passage .empty 1000 ⟨0⟩ .ofTainted,
      Runs ((tick .empty 1000 ⟨0⟩).run .ofTainted)
          (ControlLoop.ofTainted.firstExchange .empty ⟨0⟩ :: (p.trace ++ p.rest))
          (.ok p.summary, p.after) ∧
        p.Skips ⟨"a"⟩ ∧ ControlLoop.ofTainted.Knows ⟨"a"⟩ ∧
          ¬ p.after.Remembers .ofTainted ⟨"a"⟩ := by
  obtain ⟨r, hskips⟩ := Reading.exists_skips .empty 1000 ⟨0⟩ .ofTainted ⟨"a"⟩
  obtain ⟨p, rfl, -⟩ := Passage.exists_of_reading r (·.question.succeed)
  have hknows : ControlLoop.ofTainted.Knows ⟨"a"⟩ := .inl (List.mem_singleton_self _)
  have hiff := (unread_node_remembered_iff p.runs_tick.begins ⟨"a"⟩).1 p.toReading ⟨p.rest, rfl⟩
    hskips
  exact ⟨p, p.runs_tick, hskips, hknows, fun hremembers => hiff.mp hremembers hknows⟩

end ClusterScaler
