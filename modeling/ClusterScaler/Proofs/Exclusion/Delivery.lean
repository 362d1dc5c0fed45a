import ClusterScaler.Proofs.Exclusion.Pool

/-!
# What becomes of dispatched updaters

A pool, the updaters that run for it, and the call that is going on. The events of a node are a row of
lives, each of which begins with an acceptance and ends with its one report; only the last one may still
be going on. So it stays when an updater is accepted, when it comes to its end, and when it is taken out
of the pool, whichever call does that.
-/

set_option autoImplicit false

namespace ClusterScaler

/-- What happens to the updaters of a pool. -/
inductive PoolEvent where
  | accepted (u : Update) (time : Duration)
  /-- An updater came to its end by itself. -/
  | ended (node : NodeId) (ended : UpdaterEnd)
  /-- An updater was stopped while it ran. -/
  | aborted (node : NodeId)
  | reported (o : UpdateOutcome) (time : Duration)

namespace PoolEvent

/-- The node whose updater an event is about. -/
def node : PoolEvent → NodeId
  | accepted u _ => u.request.node
  | ended node _ => node
  | aborted node => node
  | reported o _ => o.node

def isAccepted : PoolEvent → Bool
  | accepted .. => true
  | _ => false

def isReported : PoolEvent → Bool
  | reported .. => true
  | _ => false

end PoolEvent

/-- The call of a pool that is going on. -/
inductive PoolCall where
  | idle
  /-- A collection, with the updaters that it has singled out and not yet taken out. -/
  | collecting (chosen : List NodeId)
  /-- A wait for all updaters. -/
  | awaiting

/-- The updaters that a call is about to take out. -/
def PoolCall.chosen : PoolCall → List NodeId
  | collecting chosen => chosen
  | _ => []

/-- A pool with the updaters that run for it. -/
structure Crew where
  pool : UpdaterPool
  /-- The nodes of the updaters that are running. -/
  running : List NodeId := []
  time : Duration
  call : PoolCall := .idle

/-- What happens when an updater is taken out of the pool: one that is still running is stopped, and
its outcome is reported. -/
def UpdaterSlot.leaves (slot : UpdaterSlot) (node : NodeId) (time : Duration) : List PoolEvent :=
  (if slot.ended.isNone then [.aborted node] else []) ++ [.reported (slot.outcome node time) time]

/-- What is due stays due. -/
theorem UpdaterSlot.isDue_later {slot : UpdaterSlot} {time time' : Duration}
    (h : slot.isDue time = true) (htime : time.nanos ≤ time'.nanos) : slot.isDue time' = true := by
  unfold isDue isOverdue elapsed at h ⊢
  rw [Bool.or_eq_true, decide_eq_true_iff] at h ⊢
  dsimp only at h ⊢
  rcases h with hended | hover
  · exact .inl hended
  · exact .inr (by omega)

namespace Crew

/-- Take an updater out of the pool. -/
def takeOut (c : Crew) (node : NodeId) (slot : UpdaterSlot) : Crew :=
  { c with
    pool := { c.pool with slots := c.pool.slots.erase node }
    running := if slot.ended.isNone then c.running.erase node else c.running }

theorem get?_takeOut (c : Crew) (node : NodeId) (slot : UpdaterSlot) (n : NodeId) :
    (c.takeOut node slot).pool.slots.get? n =
      if n = node then none else c.pool.slots.get? n := Table.get?_erase

end Crew

/-- How an updater that was accepted at a time may leave the pool: it has ended and its own result
is reported, or it has been in flight for longer than its timeout and the grace, is stopped, and is
reported as timed out. How long it was in flight is reported as well. -/
inductive Update.Leaves (u : Update) (grace since : Duration) : List PoolEvent → Prop where
  | ended (e : UpdaterEnd) (time : Duration) :
    Leaves u grace since [.ended u.request.node e,
      .reported ⟨u.request.node, u.request.nodeType, e.result, ⟨time.nanos - since.nanos⟩⟩ time]
  | overran {time : Duration} :
    u.timeout.nanos + grace.nanos < time.nanos - since.nanos →
      Leaves u grace since [.aborted u.request.node,
        .reported ⟨u.request.node, u.request.nodeType,
          .error (.timeout ⟨time.nanos - since.nanos⟩), ⟨time.nanos - since.nanos⟩⟩ time]

/-- The lives of the past updaters of a node. -/
inductive PastLives (grace : Duration) (node : NodeId) : List PoolEvent → Prop where
  | nil : PastLives grace node []
  | append {past life : List PoolEvent} {u : Update} {since : Duration} :
    PastLives grace node past → u.request.node = node → u.Leaves grace since life →
      PastLives grace node (past ++ .accepted u since :: life)

/-- The slot for an updater that was accepted at a time, with its end once that has come. -/
def Update.slot (u : Update) (grace since : Duration) (ended : Option UpdaterEnd) : UpdaterSlot :=
  ⟨u.request.nodeType, since, ⟨u.timeout.nanos + grace.nanos⟩, ended⟩

/-- The life so far of the updater of a node that is in the pool, if there is one. -/
inductive PresentLife (grace : Duration) (node : NodeId) :
    Option UpdaterSlot → List PoolEvent → Prop where
  | none : PresentLife grace node none []
  | running {u : Update} {since : Duration} :
    u.request.node = node →
      PresentLife grace node (some (u.slot grace since none)) [.accepted u since]
  | ended {u : Update} {since : Duration} (e : UpdaterEnd) :
    u.request.node = node → PresentLife grace node (some (u.slot grace since (some e)))
      [.accepted u since, .ended node e]

/-- The events of a node are its past lives and then its present one. -/
def HasLives (grace : Duration) (node : NodeId) (slot? : Option UpdaterSlot)
    (events : List PoolEvent) : Prop :=
  ∃ past present, events = past ++ present ∧ PastLives grace node past ∧
    PresentLife grace node slot? present

/-- The events of a node among others. -/
def eventsOf (node : NodeId) (h : List PoolEvent) : List PoolEvent :=
  h.filter (fun e => decide (e.node = node))

theorem eventsOf_append (node : NodeId) (h es : List PoolEvent) :
    eventsOf node (h ++ es) = eventsOf node h ++ eventsOf node es := List.filter_append h es

theorem eventsOf_self {node : NodeId} {es : List PoolEvent} (h : ∀ e ∈ es, e.node = node) :
    eventsOf node es = es :=
  List.filter_eq_self.mpr (fun e he => decide_eq_true (h e he))

theorem eventsOf_of_ne {node : NodeId} {es : List PoolEvent} (h : ∀ e ∈ es, e.node ≠ node) :
    eventsOf node es = [] :=
  List.filter_eq_nil_iff.mpr (fun e he => by simpa using h e he)

namespace HasLives

variable {grace : Duration} {node : NodeId} {events : List PoolEvent} {slot : UpdaterSlot}

/-- An updater is accepted for a node without one. -/
theorem accepted (h : HasLives grace node none events) {u : Update} (hnode : u.request.node = node)
    (since : Duration) :
    HasLives grace node (some (u.slot grace since none)) (events ++ [.accepted u since]) := by
  obtain ⟨past, present, rfl, hpast, hpresent⟩ := h
  cases hpresent
  exact ⟨past, _, List.append_assoc past [] _, hpast, .running hnode⟩

/-- The updater of a node ends. -/
theorem ended (h : HasLives grace node (some slot) events) (hrunning : slot.ended = none)
    (e : UpdaterEnd) :
    HasLives grace node (some { slot with ended := some e }) (events ++ [.ended node e]) := by
  obtain ⟨past, present, rfl, hpast, hpresent⟩ := h
  cases hpresent with
  | @running u since hnode =>
    exact ⟨past, [.accepted u since, .ended node e], List.append_assoc .., hpast, .ended e hnode⟩
  | ended e' hnode => cases hrunning

/-- The updater of a node leaves the pool when it is due. -/
theorem leaves (h : HasLives grace node (some slot) events) {time : Duration}
    (hdue : slot.isDue time = true) :
    HasLives grace node none (events ++ slot.leaves node time) := by
  obtain ⟨past, present, rfl, hpast, hpresent⟩ := h
  cases hpresent with
  | @running u since hnode =>
    subst hnode
    have hover : u.timeout.nanos + grace.nanos < time.nanos - since.nanos :=
      of_decide_eq_true hdue
    have hlife : u.Leaves grace since _ := .overran hover
    refine ⟨_, [], ?_, hpast.append rfl hlife, .none⟩
    rw [List.append_nil, List.append_assoc]
    rfl
  | @ended u since e hnode =>
    subst hnode
    have hlife : u.Leaves grace since _ := .ended e time
    refine ⟨_, [], ?_, hpast.append rfl hlife, .none⟩
    rw [List.append_nil, List.append_assoc]
    rfl

end HasLives

namespace Crew

variable {grace : Duration} {h es : List PoolEvent} {c c' : Crew}

/-- What is true of a pool with the events that it is told by. -/
structure Sound (grace : Duration) (h : List PoolEvent) (c : Crew) : Prop where
  patience : c.pool.grace = grace
  nodup : c.running.Nodup
  /-- The updaters that are running are those with an open slot. -/
  running : ∀ node, node ∈ c.running ↔
    ∃ slot, c.pool.slots.get? node = some slot ∧ slot.ended = none
  /-- What a collection has singled out stays due. -/
  due : ∀ node ∈ c.call.chosen, ∀ slot, c.pool.slots.get? node = some slot →
    slot.isDue c.time = true
  lives : ∀ node, HasLives grace node (c.pool.slots.get? node) (eventsOf node h)
  count : c.pool.inFlight + h.countP PoolEvent.isReported = h.countP PoolEvent.isAccepted

theorem sound_new (grace time : Duration) : Sound grace [] { pool := { grace }, time } := by
  refine ⟨rfl, .nil, fun node => ?_, fun _ hnode => (nomatch hnode), fun node => ?_, rfl⟩
  · refine ⟨fun hnode => (nomatch hnode), ?_⟩
    rintro ⟨slot, hslot, -⟩
    cases hslot
  · exact ⟨[], [], rfl, .nil, .none⟩

/-- What happens without an event leaves the updaters alone. -/
theorem Sound.quiet (hsound : c.Sound grace h) {time : Duration} {call : PoolCall}
    (hdue : ∀ node ∈ call.chosen, ∀ slot, c.pool.slots.get? node = some slot →
      slot.isDue time = true) :
    Sound grace (h ++ []) { c with time, call } := by
  rw [List.append_nil]
  exact ⟨hsound.patience, hsound.nodup, hsound.running, hdue, hsound.lives, hsound.count⟩

/-- What happens to the updater of one node leaves the others alone. -/
theorem Sound.change (hsound : c.Sound grace h) (node : NodeId) {pool : UpdaterPool}
    {running : List NodeId} {call : PoolCall} (hgrace : pool.grace = c.pool.grace)
    (hothers : ∀ n, n ≠ node → pool.slots.get? n = c.pool.slots.get? n)
    (hrest : ∀ n, n ≠ node → (n ∈ running ↔ n ∈ c.running)) (hnodup : running.Nodup)
    (hrunning : node ∈ running ↔ ∃ slot, pool.slots.get? node = some slot ∧ slot.ended = none)
    (hdue : ∀ n ∈ call.chosen, ∀ slot, pool.slots.get? n = some slot → slot.isDue c.time = true)
    (hes : ∀ e ∈ es, e.node = node)
    (hlives : HasLives grace node (pool.slots.get? node) (eventsOf node h ++ es))
    (hcount : pool.inFlight + es.countP PoolEvent.isReported =
      c.pool.inFlight + es.countP PoolEvent.isAccepted) :
    Sound grace (h ++ es) { c with pool, running, call } := by
  refine ⟨hgrace.trans hsound.patience, hnodup, fun n => ?_, hdue, fun n => ?_, ?_⟩
  · by_cases hn : n = node
    · exact hn ▸ hrunning
    · rw [hrest n hn, hothers n hn]
      exact hsound.running n
  · rw [eventsOf_append]
    by_cases hn : n = node
    · subst hn
      rw [eventsOf_self hes]
      exact hlives
    · rw [eventsOf_of_ne (fun e he heq => hn (heq.symm.trans (hes e he))), List.append_nil,
        hothers n hn]
      exact hsound.lives n
  · have hbefore := hsound.count
    rw [List.countP_append, List.countP_append]
    dsimp only
    omega

/-- An updater is accepted and starts to run. -/
theorem Sound.dispatch (hsound : c.Sound grace h) {u : Update} {pool : UpdaterPool}
    (hidle : c.call = .idle) (hpool : c.pool.dispatch? u c.time = some pool) :
    Sound grace (h ++ [.accepted u c.time])
      { c with pool, running := u.request.node :: c.running } := by
  obtain ⟨hfree, ⟨slot, hslot, hopen⟩, hothers⟩ := UpdaterPool.dispatch?_eq_some hpool
  rw [UpdaterPool.isUpdating_eq_false_iff] at hfree
  have hpool' : pool = { c.pool with
      slots := c.pool.slots.insert u.request.node (u.slot grace c.time none) } := by
    unfold UpdaterPool.dispatch? at hpool
    split at hpool
    · cases hpool
    · cases hpool
      rw [← hsound.patience]
      rfl
  have hlives := hsound.lives u.request.node
  rw [hfree] at hlives
  have hnew : u.request.node ∉ c.running := by
    intro hmem
    obtain ⟨slot, hslot, -⟩ := (hsound.running _).mp hmem
    rw [hfree] at hslot
    cases hslot
  refine hsound.change u.request.node ?_ hothers ?_
    (List.nodup_cons.mpr ⟨hnew, hsound.nodup⟩) ?_ ?_ ?_ ?_ ?_
  · rw [hpool']
  · intro n hn
    rw [List.mem_cons, or_iff_right hn]
  · exact ⟨fun _ => ⟨slot, hslot, hopen⟩, fun _ => List.mem_cons_self⟩
  · rw [hidle]
    exact fun _ hn => nomatch hn
  · exact fun e he => List.mem_singleton.mp he ▸ rfl
  · rw [hpool', Table.get?_insert_self]
    exact hlives.accepted rfl c.time
  · rw [hpool']
    exact Table.size_insert_of_none hfree

/-- A running updater comes to its end. -/
theorem Sound.ends (hsound : c.Sound grace h) {node : NodeId} (e : UpdaterEnd)
    (hnode : node ∈ c.running) :
    Sound grace (h ++ [.ended node e])
      { c with pool := c.pool.complete node e, running := c.running.erase node } := by
  obtain ⟨slot, hslot, hopen⟩ := (hsound.running node).mp hnode
  have hended := UpdaterPool.get?_complete_self e hslot
  have hlives := hsound.lives node
  rw [hslot] at hlives
  refine hsound.change node ?_ ?_ ?_ (hsound.nodup.erase node) ?_ ?_ ?_ ?_ ?_
  · rw [UpdaterPool.complete_eq e hslot]
  · exact fun n hn => UpdaterPool.get?_complete_of_ne hn
  · exact fun n hn => List.mem_erase_of_ne hn
  · rw [hended]
    refine ⟨fun hmem => absurd hmem hsound.nodup.not_mem_erase, ?_⟩
    rintro ⟨slot', heq, hnone⟩
    cases heq
    cases hnone
  · intro n hn slot' hslot'
    by_cases heq : n = node
    · subst heq
      rw [hended] at hslot'
      cases hslot'
      rfl
    · rw [UpdaterPool.get?_complete_of_ne heq] at hslot'
      exact hsound.due n hn slot' hslot'
  · exact fun e he => List.mem_singleton.mp he ▸ rfl
  · rw [hended]
    exact hlives.ended hopen e
  · rw [UpdaterPool.complete_eq e hslot]
    exact Table.size_insert_of_some hslot

theorem Sound.running_takeOut (hsound : c.Sound grace h) {node : NodeId} {slot : UpdaterSlot}
    (hslot : c.pool.slots.get? node = some slot) :
    (c.takeOut node slot).running.Nodup ∧
      ∀ n, n ∈ (c.takeOut node slot).running ↔ n ≠ node ∧ n ∈ c.running := by
  unfold Crew.takeOut
  dsimp only
  split
  next => exact ⟨hsound.nodup.erase node, fun n => hsound.nodup.mem_erase_iff⟩
  next hended =>
    refine ⟨hsound.nodup, fun n => ⟨fun hn => ⟨?_, hn⟩, fun hn => hn.2⟩⟩
    -- an updater that has ended is not running
    rintro rfl
    obtain ⟨slot', hslot', hopen⟩ := (hsound.running n).mp hn
    rw [hslot] at hslot'
    cases hslot'
    rw [hopen] at hended
    exact hended rfl

/-- An updater that is due is taken out of the pool. -/
theorem Sound.takeOut (hsound : c.Sound grace h) {node : NodeId} {slot : UpdaterSlot}
    {call : PoolCall} (hslot : c.pool.slots.get? node = some slot)
    (hdue : slot.isDue c.time = true) (hchosen : call.chosen ⊆ c.call.chosen) :
    Sound grace (h ++ slot.leaves node c.time) { c.takeOut node slot with call } := by
  obtain ⟨hnodup, hrunning⟩ := hsound.running_takeOut hslot
  have hgone : (c.takeOut node slot).pool.slots.get? node = none :=
    (c.get?_takeOut node slot node).trans (if_pos rfl)
  have hothers : ∀ n, n ≠ node →
      (c.takeOut node slot).pool.slots.get? n = c.pool.slots.get? n :=
    fun n hn => (c.get?_takeOut node slot n).trans (if_neg hn)
  have hlives := hsound.lives node
  rw [hslot] at hlives
  refine hsound.change node rfl hothers ?_ hnodup ?_ ?_ ?_ ?_ ?_
  · exact fun n hn => (hrunning n).trans (and_iff_right hn)
  · rw [hgone]
    refine ⟨fun hmem => absurd rfl ((hrunning node).mp hmem).1, ?_⟩
    rintro ⟨slot', heq, -⟩
    cases heq
  · intro n hn slot' hslot'
    have hne : n ≠ node := by
      rintro rfl
      rw [hgone] at hslot'
      cases hslot'
    rw [hothers n hne] at hslot'
    exact hsound.due n (hchosen hn) slot' hslot'
  · intro e he
    unfold UpdaterSlot.leaves at he
    rcases List.mem_append.mp he with he | he
    · split at he
      · exact List.mem_singleton.mp he ▸ rfl
      · cases he
    · exact List.mem_singleton.mp he ▸ rfl
  · rw [hgone]
    exact hlives.leaves hdue
  · have hsize : c.pool.inFlight = (c.takeOut node slot).pool.inFlight + 1 :=
      Table.size_erase_of_some hslot
    unfold UpdaterSlot.leaves
    rw [hsize]
    cases slot.ended <;> rfl

end Crew

end ClusterScaler
