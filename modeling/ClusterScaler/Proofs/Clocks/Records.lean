import ClusterScaler.Proofs.Exclusion.Watch
import ClusterScaler.Proofs.Tick.Unread

/-!
# The heartbeat clock of a node over a tick

A tick starts the heartbeat clock of a node that has none, when it merges a success for it or finds
it ready. Otherwise it leaves the record of a node alone as long as it reads the node whenever it
reads at all, and until it has terminated the node. A node that it finds stale is terminated with
the next thing that it asks.
-/

set_option autoImplicit false

namespace ClusterScaler

open Program

/-- A question is answered by the termination of a node. -/
def Question.Reaps (node : NodeId) : (q : Question) → q.Reply → Prop
  | .request (.terminateNodes nodes), d => node ∈ nodes ∧ d.answer.isOk = true
  | _, _ => False

theorem Question.Reaps.exists_nodes {node : NodeId} {q : Question} {reply : q.Reply}
    (h : q.Reaps node reply) : ∃ nodes, q = .request (.terminateNodes nodes) := by
  unfold Reaps at h
  split at h
  · next nodes _ => exact ⟨nodes, rfl⟩
  · exact h.elim

namespace ControlLoop

variable {l : ControlLoop} {nodes : List NodeRecord} {now : Nat}

/-- A node that was read is in the state that follows from what was read. -/
theorem states_observe (hnodup : (nodes.map (·.id)).Nodup) {n : NodeRecord} (hn : n ∈ nodes) :
    (l.observe nodes).states.get? n.id = some (l.observed n) := by
  have hfold : ∀ (rest : List NodeRecord) (t : Table NodeId NodeState),
      (rest.map (·.id)).Nodup → n ∈ rest →
        (rest.foldl (fun t n => t.insert n.id (l.observed n)) t).get? n.id =
          some (l.observed n) := by
    intro rest
    induction rest with
    | nil => exact fun _ _ hn => absurd hn List.not_mem_nil
    | cons m rest ih =>
      intro t hnodup hn
      rw [List.map_cons, List.nodup_cons] at hnodup
      rw [List.foldl_cons]
      rcases List.mem_cons.mp hn with rfl | hn
      · -- no later node has the same id
        apply List.foldlRecOn
          (motive := fun t : Table NodeId NodeState => t.get? n.id = some (l.observed n)) rest
        · exact Table.get?_insert_self
        · intro t ht m hm
          have hne : n.id ≠ m.id := fun heq => hnodup.1 (heq ▸ List.mem_map_of_mem hm)
          rw [Table.get?_insert_of_ne hne, ht]
      · exact ih _ hnodup.2 hn
  exact hfold nodes _ hnodup hn

/-- Once a loop has taken in the nodes that were read, the clocks of those that are ready run, and
nothing else has happened to the record of any of them. -/
theorem get?_loads_takeIn {id : NodeId} (hread : id ∈ nodes.map (·.id)) :
    (l.takeIn nodes now).loads.get? id =
      if (l.observe nodes).states.get? id = some .ready then
        some ((l.loads.get? id).getD (NodeLoad.seeded now))
      else l.loads.get? id := by
  let ready : Prop := (l.observe nodes).states.get? id = some .ready
  -- what taking in one node does to the record
  have hstep : ∀ (n : NodeRecord) (s : LoadStore Float),
      (if (l.observe nodes).states.get? n.id == some .ready then s.markActive n.id now
        else s).get? id =
          if id = n.id ∧ ready then some ((s.get? id).getD (NodeLoad.seeded now))
          else s.get? id := by
    intro n s
    by_cases hid : id = n.id
    · subst hid
      by_cases hready : (l.observe nodes).states.get? n.id = some .ready
      · simp [ready, hready, LoadStore.get?_markActive]
      · simp [ready, hready]
    · split <;> simp [hid, LoadStore.get?_markActive]
  have hfold : ∀ (rest : List NodeRecord) (s : LoadStore Float),
      (rest.foldl (fun loads n =>
        if (l.observe nodes).states.get? n.id == some .ready then loads.markActive n.id now
        else loads) s).get? id =
          if id ∈ rest.map (·.id) ∧ ready then some ((s.get? id).getD (NodeLoad.seeded now))
          else s.get? id := by
    intro rest
    induction rest with
    | nil => exact fun s => (if_neg fun h => absurd h.1 List.not_mem_nil).symm
    | cons n rest ih =>
      intro s
      rw [List.foldl_cons, ih, hstep]
      simp only [List.map_cons, List.mem_cons]
      by_cases hready : ready
      · by_cases hid : id = n.id <;> simp [hready, hid]
      · simp [hready]
  have hpruned : ((l.observe nodes).loads.prune (nodes.map (·.id))).1.get? id = l.loads.get? id := by
    rw [LoadStore.get?_prune, if_pos hread]
    rfl
  have hrecord := hfold nodes ((l.observe nodes).loads.prune (nodes.map (·.id))).1
  rw [hpruned] at hrecord
  refine hrecord.trans ?_
  simp only [hread, true_and, ready]

end ControlLoop

namespace Reading

variable {files : FileStore} {now : Nat} {time : Duration} {before : ControlLoop} {node : NodeId}

theorem loads_loop (r : Reading files now time before) :
    r.loop.loads = (before.begun files now time).2.loads :=
  ((Tick.reconcile_recalls _).result r.runs (follows_asking r.trace)).2

/-- The loop that plans has the record of a node that was read as the tick began with it, but for a
clock that has been started. -/
theorem loads_planner (r : Reading files now time before) (hread : node ∈ r.nodes.map (·.id)) :
    (before.loads.get? node = none ∧ (before.MergesSuccess time node ∨
        (r.loop.observe r.nodes).states.get? node = some .ready) →
      r.planner.loads.get? node = some (NodeLoad.seeded now)) ∧
    (¬ (before.loads.get? node = none ∧ (before.MergesSuccess time node ∨
        (r.loop.observe r.nodes).states.get? node = some .ready)) →
      r.planner.loads.get? node = before.loads.get? node) := by
  obtain ⟨hmerged, hunmerged⟩ := @ControlLoop.get?_loads_begun node now time before files
  have hplanner : r.planner.loads.get? node = _ := ControlLoop.get?_loads_takeIn hread
  rw [hplanner, r.loads_loop]
  cases hrecord : before.loads.get? node with
  | none =>
    rw [hrecord] at hmerged hunmerged
    by_cases hmerges : before.MergesSuccess time node
    · rw [hmerged hmerges]
      simp [hmerges]
    · rw [hunmerged hmerges]
      simp [hmerges]
  | some load =>
    rw [hrecord] at hmerged hunmerged
    have hkept : (before.begun files now time).2.loads.get? node = some load := by
      by_cases hmerges : before.MergesSuccess time node
      · exact hmerged hmerges
      · exact hunmerged hmerges
    simp [hkept]

/-- A node that is found ready has a load record when the tick plans. -/
theorem isSome_loads_planner (r : Reading files now time before) {n : NodeRecord}
    (hn : n ∈ r.nodes) (hidle : r.planner.isUpdating n.id = false) (hrunning : n.running = true)
    (hcurrent : r.planner.isUpToDate n = true) : (r.planner.loads.get? n.id).isSome := by
  have hready : r.loop.observed n = .ready := by
    have hfree : r.loop.isUpdating n.id = false := hidle
    have htagged : r.loop.isUpToDate n = true := hcurrent
    unfold ControlLoop.observed
    rw [hfree, htagged, hrunning]
    rfl
  have hstate := ControlLoop.states_observe (l := r.loop) r.nodup hn
  have hplanner : r.planner.loads.get? n.id = _ :=
    ControlLoop.get?_loads_takeIn (List.mem_map_of_mem hn)
  rw [hplanner, if_pos (hready ▸ hstate)]
  rfl

/-- After the reading the record of a node stays as it is, unless the node is terminated. -/
theorem loads_standing (r : Reading files now time before) {trace : List TickExchange}
    {left : Program TickAsk TickAsk.Reply (Except LoopError TickSummary × ControlLoop)}
    (hbegins : Begins ((tick files now time).run before) trace left) (hread : r.Precedes trace)
    (hspared : ∀ x ∈ trace, ¬ x.op.question.Reaps node x.reply) :
    (Tick.standing left).loads.get? node = r.planner.loads.get? node := by
  obtain ⟨rest, rfl⟩ := hread
  obtain ⟨left', hpassing, hstanding⟩ := r.begins_passing hbegins
  rw [hstanding]
  let inv (l : ControlLoop) : Prop := l.loads.get? node = r.planner.loads.get? node
  let P : Protocol TickAsk TickAsk.Reply Unit :=
    (asking (inv ·.loop)).restrict fun a reply => ¬ a.question.Reaps node reply
  have hkept : ∀ q : Question, q.Kept P (fun l _ => inv l) := fun q l s h =>
    ⟨h, fun reply s' hfollows =>
      (Tick.kept_asking (fun _ _ h => h) q l s h).2 reply s' hfollows.1⟩
  have hlooks : LooksKept P (fun l _ => inv l) := fun q _ => hkept (.request q)
  have hstart : ∀ l o, StartKept P (fun l _ => inv l) l o := fun l o s h => ⟨h, fun _ _ _ => h⟩
  have hmerge : ∀ (l : ControlLoop) (s : Unit) sum ended, inv l →
      inv (ControlLoop.mergeLaunch (sum, l) ended).2 := by
    intro l s sum ended h
    obtain ⟨launched, breaker, hmerged⟩ := ControlLoop.mergeLaunch_eq sum l ended
    rw [hmerged]
    exact h
  have hmeets : (Tick.afterReconcile now time r.nodes (before.begun files now time).1).Meets P
      (fun _ l _ => inv l) r.loop () := by
    rw [Tick.afterReconcile_eq, TickM.meets_bind, TickM.meets_modify, TickM.meets_bind,
      TickM.meets_get]
    unfold Tick.carryOut
    rw [TickM.meets_bind]
    -- a termination that succeeds is not one of the node
    refine (Tick.frame_terminating (fun _ _ => node ∉ r.plan.doomed) hlooks ?_ (fun l s h => h) ?_
      (fun l s sum h => h) rfl).mono ?_
    · intro l s h
      refine TickM.meets_request.mpr ⟨h, fun d s' hfollows => ⟨h, fun hok hmem => ?_⟩⟩
      exact hfollows.2 ⟨hmem, hok⟩
    · intro l s h hother
      have hrecord : (r.plan.doomed.foldl LoadStore.remove l.loads).get? node = l.loads.get? node := by
        rw [LoadStore.get?_foldl_remove, if_neg hother]
      exact hrecord.trans h
    rintro ⟨removed, sum⟩ l s ⟨-, h⟩
    dsimp only
    rw [TickM.meets_bind]
    refine (Tick.frame_launchUnlessTripped (fun _ o _ => hstart l o) (hkept .awaitLaunch) hmerge sum
      h).mono ?_
    intro sum' l' s' h'
    rw [TickM.meets_bind]
    refine (Tick.frame_dispatchAll hlooks
      (fun n _ l s nodeType hashes _ _ l' s' time head updaters h _ => ⟨h, fun _ _ _ => h⟩)
      time _ none sum' h').mono ?_
    exact fun sum'' l'' s'' h'' => h''
  have hleft := Program.Meets.left hmeets hpassing
    ((follows_asking rest).restrict fun x hx => hspared x
      (List.mem_cons_of_mem _ (List.mem_append_right _ hx)))
  cases left' with
  | done r => exact hleft
  | ask a next => exact hleft.1

end Reading

/-- What a part of a tick asks first. -/
def Tick.Opens {α : Type} (q : Question) (p : Program TickAsk TickAsk.Reply α) : Prop :=
  ∃ loop next, p = .ask ⟨loop, q⟩ next

namespace Tick

variable {α β : Type} {q : Question} {p : Program TickAsk TickAsk.Reply α}

theorem Opens.bind (h : Opens q p) (f : α → Program TickAsk TickAsk.Reply β) :
    Opens q (p.bind f) := by
  obtain ⟨loop, next, rfl⟩ := h
  exact ⟨loop, _, rfl⟩

/-- What a part of a tick asks first it has asked, or it is what it waits for. -/
theorem Opens.asked (h : Opens q p) {trace : List TickExchange}
    {left : Program TickAsk TickAsk.Reply α} (hbegins : Begins p trace left) :
    (∃ x ∈ trace, x.op.question = q) ∨ Opens q left := by
  obtain ⟨loop, next, rfl⟩ := h
  cases hbegins with
  | here => exact .inr ⟨loop, next, rfl⟩
  | ask _ => exact .inl ⟨_, List.mem_cons_self, rfl⟩

/-- If there is something to terminate, a termination asks for all of it first. -/
theorem opens_terminate {doomed : List NodeId} (hsome : doomed ≠ []) (sum : TickSummary)
    (l : ControlLoop) :
    Opens (.request (.terminateNodes doomed)) ((terminate doomed sum).run l) := by
  have hattempts : ∀ (policy : RetryPolicy) (left : Nat) (l : ControlLoop),
      Opens (.request (.terminateNodes doomed)) ((policy.attempts TickM.pause
        (TickM.request (.terminateNodes doomed)) left).run l) := by
    intro policy left l
    cases left with
    | zero => exact ⟨_, _, rfl⟩
    | succ left => exact ⟨_, _, rfl⟩
  unfold terminate
  rw [if_neg (by simpa using hsome)]
  exact (hattempts l.retry l.retry.maxRetries (l.markAll .terminating doomed)).bind _

/-- If nodes have to go, their termination is what a tick asks for first after its reading. -/
theorem opens_afterReconcile {files : FileStore} {now : Nat} {time : Duration}
    {before : ControlLoop} (r : Reading files now time before) (hsome : r.plan.doomed ≠ [])
    (sum : TickSummary) :
    Opens (.request (.terminateNodes r.plan.doomed))
      ((afterReconcile now time r.nodes sum).run r.loop) := by
  exact (opens_terminate hsome sum r.planner).bind _

end Tick

end ClusterScaler
