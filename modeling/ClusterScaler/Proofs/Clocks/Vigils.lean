import ClusterScaler.Proofs.Clocks.Turns

/-!
# Silent nodes

A vigil follows one node through a run: whether a tick has listed the node, and when its heartbeat
clock was last set since then, by a heartbeat that was accepted or by a tick that started it. As in
every course, heartbeats come in between ticks. As long as nobody else writes the tags of the nodes,
the load record of such a node tells that time until the node is gone. So a tick that reads the node
and finds that too much time has passed terminates it, and a ready node that never reports has a
clock too.
-/

set_option autoImplicit false

namespace ClusterScaler

open Program

open Classical in
/-- The latest time of an event, if one that counts happens now or none does. -/
noncomputable def latest (counts : Prop) (now : Nat) (heard : Option Nat) : Option Nat :=
  if counts then some now else heard

theorem latest_eq_some_iff {counts : Prop} {now time : Nat} {heard : Option Nat} :
    latest counts now heard = some time ↔
      (counts ∧ now = time) ∨ (¬ counts ∧ heard = some time) := by
  unfold latest
  split
  · next hcounts => simp [hcounts]
  · next hnot => simp [hnot]

/-- When the heartbeat clock of a node was last set, once a turn is over: the turn counts if it starts the
clock and the node has been listed by then. -/
noncomputable def Turn.heard {c : Course} (t : Turn c) (node : NodeId) (listed : Prop)
    (heard : Option Nat) : Option Nat :=
  latest (t.Seeds node ∧ (listed ∨ t.Lists node)) t.now heard

/-- A clock that runs is not started. -/
theorem Turn.heard_eq_some {c : Course} (t : Turn c) {node : NodeId} {listed : Prop}
    {heard : Option Nat} {time : Nat} (hrecord : (c.loop.loads.get? node).isSome)
    (hheard : heard = some time) : t.heard node listed heard = some time := by
  refine latest_eq_some_iff.mpr (.inr ⟨fun hcounts => ?_, hheard⟩)
  rw [hcounts.1.1] at hrecord
  cases hrecord

/-- A turn asks for the termination of a node. -/
def Turn.Terminates {c : Course} (t : Turn c) (node : NodeId) : Prop :=
  ∃ nodes, t.Asks (.request (.terminateNodes nodes)) ∧ node ∈ nodes

/-- A course, with what has happened to the heartbeat clock of one node. -/
structure Vigil where
  course : Course
  /-- A tick has listed the node. -/
  listed : Prop
  /-- When the clock was last set since then. -/
  heard : Option Nat

namespace Vigil

/-- How a vigil may go on, if the node can be read whenever it is listed. -/
inductive Step (outside : InMemory → InMemory → Prop) (node : NodeId) : Vigil → Vigil → Prop where
  | beside {l : ControlLoop} {s s' : Service} (listed : Prop) (heard : Option Nat) :
    Service.Steps outside s s' →
      Step outside node ⟨⟨l, s⟩, listed, heard⟩ ⟨⟨l, s'⟩, listed, heard⟩
  | turn (v : Vigil) (t : Turn v.course) : t.CanRead node →
    Step outside node v ⟨t.after, v.listed ∨ t.Lists node, t.heard node v.listed v.heard⟩
  | noteEnds (l : ControlLoop) (s : Service) (listed : Prop) (heard : Option Nat) :
    Step outside node ⟨⟨l, s⟩, listed, heard⟩
      ⟨⟨l.complete s.ends, { s with ends := [] }⟩, listed, heard⟩
  /-- A heartbeat comes in. It counts if it is one of the node and is accepted. -/
  | beat (l : ControlLoop) (s : Service) (listed : Prop) (heard : Option Nat) (id : NodeId)
    (used available : Resources Float) (now : Nat) :
    Step outside node ⟨⟨l, s⟩, listed, heard⟩
      ⟨⟨{ l with loads := (l.loads.recordHeartbeat id used available now).1 }, s⟩, listed,
        latest (id = node ∧ (l.loads.recordHeartbeat id used available now).2 = true ∧ listed) now
          heard⟩
  /-- Demand or commands come in, or a status is published. -/
  | feeds (l : ControlLoop) (s : Service) (listed : Prop) (heard : Option Nat)
    (demand : Demand Float) (commands : List ControlCommand) (status : ClusterStatus) :
    Step outside node ⟨⟨l, s⟩, listed, heard⟩
      ⟨⟨{ l with demand, commands, status }, s⟩, listed, heard⟩
  | obey (l : ControlLoop) (s : Service) (listed : Prop) (heard : Option Nat) (files : FileStore)
    (command : ControlCommand) :
    Step outside node ⟨⟨l, s⟩, listed, heard⟩ ⟨⟨l.obey files command, s⟩, listed, heard⟩
  /-- All updaters have been waited for. -/
  | drain (l : ControlLoop) (time : Duration) {s : Service} (listed : Prop) (heard : Option Nat) :
    (∀ n, s.flights n = 0) →
      Step outside node ⟨⟨l, s⟩, listed, heard⟩
        ⟨⟨{ l with
          updaters := (l.updaters.drain time).2
          finished := l.finished ++ (l.updaters.drain time).1 }, s⟩, listed, heard⟩
  /-- The loop is shut down. -/
  | stop (l : ControlLoop) (s : Service) (listed : Prop) (heard : Option Nat) :
    Step outside node ⟨⟨l, s⟩, listed, heard⟩
      ⟨⟨{ l with updaters := l.updaters.abortAll }, s.drop l.updaters.slots.keys⟩, listed, heard⟩

/-- Any number of steps. -/
abbrev Steps (outside : InMemory → InMemory → Prop) (node : NodeId) : Vigil → Vigil → Prop :=
  Relation.ReflTransGen (Step outside node)

variable {node : NodeId} {v v' : Vigil}

/-- If nobody else writes tags, a vigil goes on as its course does. -/
theorem Step.course (h : Step LeavesTags node v v') :
    Course.Step node v.course v'.course := by
  cases h with
  | beside _ _ hsteps => exact .beside hsteps
  | turn v t hread => exact .turn t hread
  | noteEnds l s _ _ => exact .noteEnds l s
  | beat l s _ _ id used available now =>
    exact .feeds l s { l.toFeeds with loads := (l.loads.recordHeartbeat id used available now).1 }
  | feeds l s _ _ demand commands status =>
    exact .feeds l s { l.toFeeds with demand, commands, status }
  | obey l s _ _ files command => exact .obey l s files command
  | drain l time _ _ hnone => exact .drain l time hnone
  | stop l s _ _ => exact .stop l s

/-- Between ticks a node that has been listed is one of the cluster, and its load record tells when its
clock was last set, unless it is gone. -/
structure Holds (node : NodeId) (v : Vigil) : Prop where
  kept : v.course.Kept node False
  owned : v.listed → v.course.service.Owns v.course.loop node
  listed : ∀ time, v.heard = some time → v.listed
  record : ∀ time, v.heard = some time → v.course.service.Gone node ∨
    ∃ load, v.course.loop.loads.get? node = some load ∧ load.lastHeartbeat = time

/-- What leaves the nodes and the record alone leaves true what was. -/
theorem Holds.quiet {c : Course} (h : v.Holds node) (hkept : c.Kept node False)
    (honward : v.course.service.provider.Onward c.service.provider)
    (hcluster : c.loop.config.clusterName = v.course.loop.config.clusterName)
    (hrecord : c.loop.loads.get? node = v.course.loop.loads.get? node) :
    Holds node ⟨c, v.listed, v.heard⟩ where
  kept := hkept
  owned hl := (h.owned hl).onward honward hcluster
  listed := h.listed
  record time ht := by
    rcases h.record time ht with hgone | hload
    · exact .inl (hgone.onward honward)
    · rw [hrecord]
      exact .inr hload

/-- A heartbeat that is accepted is what the record tells of then. -/
theorem Holds.beat {l : ControlLoop} {s : Service} {listed : Prop} {heard : Option Nat}
    {id : NodeId} {used available : Resources Float} {now : Nat}
    (h : Holds node ⟨⟨l, s⟩, listed, heard⟩)
    (hkept : Course.Kept node False
      ⟨{ l with loads := (l.loads.recordHeartbeat id used available now).1 }, s⟩) :
    Holds node ⟨⟨{ l with loads := (l.loads.recordHeartbeat id used available now).1 }, s⟩, listed,
      latest (id = node ∧ (l.loads.recordHeartbeat id used available now).2 = true ∧ listed) now
        heard⟩ where
  kept := hkept
  owned hl := (h.owned hl).onward (.refl _) rfl
  listed time ht := by
    rcases latest_eq_some_iff.mp ht with ⟨⟨-, -, hl⟩, -⟩ | ⟨-, hbefore⟩
    · exact hl
    · exact h.listed time hbefore
  record time ht := by
    rcases latest_eq_some_iff.mp ht with ⟨⟨rfl, haccepted, -⟩, rfl⟩ | ⟨hnot, hbefore⟩
    · right
      cases hrecord : l.loads.get? id with
      | none => exact ⟨_, LoadStore.get?_recordHeartbeat_of_none hrecord, rfl⟩
      | some load =>
        have hle := LoadStore.le_of_recordHeartbeat haccepted hrecord
        exact ⟨_, LoadStore.get?_recordHeartbeat_of_some hrecord hle, rfl⟩
    · refine (h.record time hbefore).imp_right ?_
      have hsame : (l.loads.recordHeartbeat id used available now).1.get? node = l.loads.get? node := by
        by_cases hid : id = node
        · have hdropped : (l.loads.recordHeartbeat id used available now).2 = false := by
            by_contra haccepted
            exact hnot ⟨hid, by simpa using haccepted, h.listed time hbefore⟩
          rw [LoadStore.recordHeartbeat_of_dropped hdropped]
        · exact LoadStore.get?_recordHeartbeat_of_ne (Ne.symm hid)
      intro hload
      rw [← hsame] at hload
      exact hload

/-- After a turn the record of a node tells when its clock was last set, unless the node is gone: because
the turn terminates it, or does not find it listed any more. -/
theorem Holds.turn (h : v.Holds node) (t : Turn v.course) (hread : t.CanRead node) :
    Holds node ⟨t.after, v.listed ∨ t.Lists node, t.heard node v.listed v.heard⟩ where
  kept := (t.kept h.kept hread).weaken .inl
  owned hl := by
    rcases hl with hl | hl
    · exact (h.owned hl).onward (t.onward h.kept.sound) t.clusterName_after
    · exact hl.owns h.kept
  listed time ht := by
    rcases latest_eq_some_iff.mp ht with ⟨⟨-, hl⟩, -⟩ | ⟨-, hbefore⟩
    · exact hl
    · exact .inl (h.listed time hbefore)
  record time ht := by
    have hlisted : v.listed ∨ t.Lists node := by
      rcases latest_eq_some_iff.mp ht with ⟨⟨-, hl⟩, -⟩ | ⟨-, hbefore⟩
      · exact hl
      · exact .inl (h.listed time hbefore)
    by_cases hreaped : ∃ x ∈ t.trace, x.op.question.Reaps node x.reply
    · obtain ⟨x, hx, hreaps⟩ := hreaped
      exact .inl (t.gone_of_reaped h.kept (hlisted.imp_left h.owned) hx hreaps)
    by_cases hmissed : (∃ r, t.Reads r) ∧ ¬ t.Lists node
    · obtain ⟨⟨r, hr⟩, hunlisted⟩ := hmissed
      exact .inl (t.gone_of_unlisted h.kept (h.owned (hlisted.resolve_right hunlisted)) hr hunlisted)
    have hreads : ∀ r, t.Reads r → node ∈ r.nodes.map (·.id) := by
      intro r hr
      refine hread r hr (hr.lists_iff.mp ?_)
      by_contra hunlisted
      exact hmissed ⟨⟨r, hr⟩, hunlisted⟩
    obtain ⟨hseeded, hsame⟩ := t.loads_after hreads fun x hx hreaps => hreaped ⟨x, hx, hreaps⟩
    rcases latest_eq_some_iff.mp ht with ⟨⟨hseeds, -⟩, rfl⟩ | ⟨hnot, hbefore⟩
    · exact .inr ⟨_, hseeded hseeds, rfl⟩
    · rcases h.record time hbefore with hgone | ⟨load, hload, htime⟩
      · exact .inl (hgone.onward (t.onward h.kept.sound))
      · refine .inr ⟨load, (hsame fun hseeds => hnot ⟨hseeds, hlisted⟩).trans hload, htime⟩

/-- However a vigil goes on, the record tells when the clock was last set. -/
theorem Holds.step (h : v.Holds node) (hstep : Step LeavesTags node v v') :
    v'.Holds node := by
  have hkept := h.kept.step hstep.course
  cases hstep with
  | beside _ _ hsteps =>
    have hwent := Service.wentOn_steps h.kept.sound hsteps
    exact h.quiet hkept (hwent.since hwent.sound rfl (.of_nodes rfl)).onward rfl rfl
  | turn v t hread => exact h.turn t hread
  | noteEnds l s _ _ => exact h.quiet hkept (.refl _) rfl rfl
  | beat l s _ _ id used available now => exact h.beat hkept
  | feeds l s _ _ demand commands status => exact h.quiet hkept (.refl _) rfl rfl
  | obey l s _ _ files command =>
    exact h.quiet hkept (.refl _) (ControlLoop.obey_same files l command).1
      (ControlLoop.get?_loads_obey files l command)
  | drain l time _ _ hnone => exact h.quiet hkept (.refl _) rfl rfl
  | stop l s _ _ => exact h.quiet hkept (.refl _) rfl rfl

theorem Holds.steps (h : v.Holds node) (hsteps : Steps LeavesTags node v v') :
    v'.Holds node := by
  induction hsteps with
  | refl => exact h
  | tail _ hstep ih => exact ih.step hstep

/-- A vigil begins before anything has been heard. -/
theorem Holds.of_initial {start : Course} (h : start.Initial) (node : NodeId) :
    Holds node ⟨start, False, none⟩ where
  kept := .of_initial h node
  owned hfalse := hfalse.elim
  listed _ ht := nomatch ht
  record _ ht := nomatch ht

end Vigil

/-- A turn that finds a node stale which has no updater in flight asks for its termination. -/
theorem Turn.terminates_of_stale {c : Course} (t : Turn c) {r : Reading t.files t.now t.time c.loop}
    (hr : t.Reads r) {n : NodeRecord} (hn : n ∈ r.nodes)
    (hidle : r.planner.isUpdating n.id = false) {load : NodeLoad Float}
    (hload : r.planner.loads.get? n.id = some load)
    (hsilent : r.planner.loads.heartbeatTimeout < t.now - load.lastHeartbeat) :
    t.Terminates n.id := by
  have hdoomed : n.id ∈ r.plan.doomed := ControlLoop.mem_doomed_of_stale hn hidle
    (LoadStore.isStale_eq_true_iff.mpr ⟨load, hload, hsilent⟩)
  refine ⟨r.plan.doomed, ?_, hdoomed⟩
  obtain ⟨rest, htrace⟩ := hr
  have hbegins := t.begins
  rw [htrace] at hbegins
  have hopens := (Tick.opens_afterReconcile r (List.ne_nil_of_mem hdoomed)
    (c.loop.begun t.files t.now t.time).1).bind (fun r =>
      .done (Except.ok (ε := LoopError) r.1, r.2))
  refine (hopens.asked (r.begins_rest hbegins)).imp_left ?_
  rintro ⟨x, hx, hquestion⟩
  refine ⟨x, ?_, hquestion⟩
  rw [htrace]
  exact List.mem_cons_of_mem _ (List.mem_append_right _ hx)

/-- In every run in which nobody else writes tags and a node can be read whenever it is listed: a turn
that reads the node while it has no updater in flight asks for its termination if the clock of the node
was last set longer ago than the heartbeat timeout; and if the node is ready it has a load record, by
which it is terminated in the same way. -/
theorem silent_node_reaped {node : NodeId} {start : Course} {v : Vigil} (hstart : start.Initial)
    (hsteps : Vigil.Steps LeavesTags node ⟨start, False, none⟩ v) (t : Turn v.course)
    {r : Reading t.files t.now t.time v.course.loop} (hr : t.Reads r) {n : NodeRecord}
    (hn : n ∈ r.nodes) (hid : n.id = node) (hidle : r.planner.isUpdating node = false) :
    (∀ heard, t.heard node v.listed v.heard = some heard →
      r.planner.loads.heartbeatTimeout < t.now - heard → t.Terminates node) ∧
    (n.running = true → r.planner.isUpToDate n = true →
      ∃ load, r.planner.loads.get? node = some load ∧
        (r.planner.loads.heartbeatTimeout < t.now - load.lastHeartbeat → t.Terminates node)) := by
  subst hid
  have hholds : v.Holds n.id := (Vigil.Holds.of_initial hstart n.id).steps hsteps
  have hread : n.id ∈ r.nodes.map (·.id) := List.mem_map_of_mem hn
  constructor
  · intro heard hheard hsilent
    rcases latest_eq_some_iff.mp hheard with ⟨-, rfl⟩ | ⟨-, hbefore⟩
    · omega
    · have hhere : ¬ v.course.service.Gone n.id := (hr.lists hread).not_gone hholds.kept
      obtain ⟨load, hload, rfl⟩ := (hholds.record heard hbefore).resolve_left hhere
      refine t.terminates_of_stale hr hn hidle ?_ hsilent
      rw [← hload]
      refine (r.loads_planner hread).2 fun hnone => ?_
      rw [hload] at hnone
      cases hnone.1
  · intro hrunning hcurrent
    obtain ⟨load, hload⟩ := Option.isSome_iff_exists.mp
      (r.isSome_loads_planner hn hidle hrunning hcurrent)
    exact ⟨load, hload, t.terminates_of_stale hr hn hidle hload⟩

namespace Course

/-- A new loop, and a head node of its cluster with what an updater may have written on it. -/
def ofHead (progress : Tags) (phase : InMemory.Phase) : Course :=
  let l := ControlLoop.ofHeadType { maxWorkers := 2 }
  let tags := (l.launchTags "head" ⟨⟨"launch"⟩, ⟨"files"⟩⟩).overlay progress
  ⟨l, { provider := ({} : InMemory).addNode tags phase }⟩

theorem initial_ofHead (progress : Tags) (phase : InMemory.Phase) : (ofHead progress phase).Initial := by
  have hempty : ({} : InMemory).Numbered := fun id n hn => by cases hn
  exact ⟨hempty.addNode _ _, rfl, rfl, rfl, rfl, rfl, rfl⟩

/-- The head node runs and has been brought up to date. -/
def ofReady : Course := ofHead (.ofList [(Tags.fileSync, "files")]) .running

/-- The head node does not run yet. -/
def ofPending : Course := ofHead ∅ .pending

/-- The node of `ofReady` is found ready at 1000 and stale at 2000. -/
theorem reaps_ofReady :
    (do
      let (nodes, l, _, c) ← ofReady.visit? 1000
      let (nodes', l', _, _) ← c.visit? 2000
      return decide (InMemory.idOf 1 ∈ nodes.map (·.id)) &&
        decide ((l.observe nodes).states.get? (InMemory.idOf 1) = some .ready) &&
          (c.loop.loads.get? (InMemory.idOf 1)).isSome &&
            decide (InMemory.idOf 1 ∈ nodes'.map (·.id)) &&
              !(l'.takeIn nodes' 2000).isUpdating (InMemory.idOf 1) &&
                decide ((l'.takeIn nodes' 2000).loads.heartbeatTimeout < 1000)) = some true := by
  decide +kernel

end Course

/-- A ready node that never reports: its clock is started at 1000, and at 2000 it is terminated. -/
theorem silent_node_reaped_ofReady :
    ∃ (v : Vigil) (t : Turn v.course) (r : Reading t.files t.now t.time v.course.loop)
      (n : NodeRecord),
      Course.ofReady.Initial ∧
        Vigil.Steps LeavesTags (InMemory.idOf 1) ⟨Course.ofReady, False, none⟩ v ∧ t.Reads r ∧
          n ∈ r.nodes ∧ n.id = InMemory.idOf 1 ∧ r.planner.isUpdating (InMemory.idOf 1) = false ∧
            t.heard (InMemory.idOf 1) v.listed v.heard = some 1000 ∧
              r.planner.loads.heartbeatTimeout < t.now - 1000 ∧ t.Terminates (InMemory.idOf 1) := by
  obtain ⟨⟨nodes, l, trace, c⟩, hfirst, h⟩ := Option.bind_eq_some_iff.mp Course.reaps_ofReady
  obtain ⟨⟨nodes', l', trace', c'⟩, hsecond, h⟩ := Option.bind_eq_some_iff.mp h
  have hchecks := Option.some.inj h
  simp only [Bool.and_eq_true, decide_eq_true_eq, Bool.not_eq_true'] at hchecks
  obtain ⟨⟨⟨⟨⟨hread, hready⟩, hrecord⟩, hread'⟩, hidle⟩, hsilent⟩ := hchecks
  obtain ⟨t, r, hr, hcan, hafter, -, hnow, -, hnodes, hloop, -⟩ := Course.exists_turn_of_visit? hfirst
  subst hafter
  obtain ⟨t', r', hr', -, -, -, hnow', -, hnodes', hloop', -⟩ := Course.exists_turn_of_visit? hsecond
  have hinitial : Course.ofReady.Initial := Course.initial_ofHead _ _
  have hseeds : t.Seeds (InMemory.idOf 1) := by
    refine hr.seeds_iff.mpr ⟨rfl, .inr ?_⟩
    rw [hloop, hnodes]
    exact hready
  have hheard : t.heard (InMemory.idOf 1) False none = some 1000 :=
    latest_eq_some_iff.mpr (.inl ⟨⟨hseeds, .inr (hr.lists (hnodes ▸ hread))⟩, hnow⟩)
  have hheard' : t'.heard (InMemory.idOf 1) (False ∨ t.Lists (InMemory.idOf 1))
      (t.heard (InMemory.idOf 1) False none) = some 1000 := t'.heard_eq_some hrecord hheard
  have hplanner : r'.planner = l'.takeIn nodes' 2000 := by
    unfold Reading.planner
    rw [hloop', hnodes', hnow']
  rw [← hplanner] at hidle hsilent
  obtain ⟨n, hn, hid⟩ := List.mem_map.mp (hnodes' ▸ hread')
  let v : Vigil := ⟨t.after, False ∨ t.Lists (InMemory.idOf 1),
    t.heard (InMemory.idOf 1) False none⟩
  have hsteps : Vigil.Steps LeavesTags (InMemory.idOf 1) ⟨Course.ofReady, False, none⟩ v :=
    .single (.turn ⟨Course.ofReady, False, none⟩ t (hcan _))
  have hlate : r'.planner.loads.heartbeatTimeout < t'.now - 1000 := by
    have hpassed : t'.now - 1000 = 1000 := by omega
    rwa [hpassed]
  exact ⟨v, t', r', n, hinitial, hsteps, hr', hn, hid, hidle, hheard', hlate,
    (silent_node_reaped hinitial hsteps t' hr' hn hid hidle).1 1000 hheard' hlate⟩

/-- Somebody writes tags of a node. -/
def InMemory.Retagged (p p' : InMemory) : Prop :=
  ∃ node tags reply, p.Replies (.setNodeTags node tags) reply p'

namespace Course

variable {c c' : Course}

/-- The first node is tagged for a cluster. -/
def relabel? (c : Course) (cluster : String) : Option Course := do
  let (_, provider) ← InMemory.answer?
    (.setNodeTags (InMemory.idOf 1) (.ofList [(Tags.clusterName, cluster)])) c.service.provider
  return ⟨c.loop, { c.service with provider }⟩

theorem steps_relabel? {cluster : String} (h : c.relabel? cluster = some c') (node : NodeId)
    (listed : Prop) (heard : Option Nat) :
    Vigil.Steps InMemory.Retagged node ⟨c, listed, heard⟩ ⟨c', listed, heard⟩ := by
  unfold relabel? at h
  obtain ⟨⟨reply, p⟩, hanswer, hreturn⟩ := Option.bind_eq_some_iff.mp h
  cases hreturn
  have hretagged : InMemory.Retagged c.service.provider p :=
    ⟨_, _, reply, InMemory.replies_of_answer? hanswer⟩
  exact .single (.beside listed heard (.single (.outside hretagged)))

/-- The first node reports that it has nothing. -/
def beat (c : Course) (now : Nat) : Course :=
  ⟨{ c.loop with loads := (c.loop.loads.recordHeartbeat (InMemory.idOf 1) ∅ ∅ now).1 }, c.service⟩

/-- The node of `ofPending` reports at 1000, is away when nodes are read at 1010, and is back at 2000,
when nothing is terminated. -/
theorem spares_ofPending :
    (do
      let (nodes, _, _, c) ← ofPending.visit? 1000
      let away ← (c.beat 1000).relabel? "other"
      let (_, _, _, missed) ← away.visit? 1010
      let back ← missed.relabel? "c"
      let (nodes', l, trace, _) ← back.visit? 2000
      return decide (InMemory.idOf 1 ∈ nodes.map (·.id)) &&
        (c.loop.loads.recordHeartbeat (InMemory.idOf 1) ∅ ∅ 1000).2 &&
          (away.loop.loads.get? (InMemory.idOf 1)).isSome &&
            decide (back.loop.finished ++ (back.loop.updaters.collect ⟨0⟩).1 = []) &&
              decide ((l.observe nodes').states.get? (InMemory.idOf 1) ≠ some .ready) &&
                decide (InMemory.idOf 1 ∈ nodes'.map (·.id)) &&
                  !(l.takeIn nodes' 2000).isUpdating (InMemory.idOf 1) &&
                    decide ((l.takeIn nodes' 2000).loads.heartbeatTimeout < 1000) &&
                      trace.all (·.op.question.terminated = [])) = some true := by
  decide +kernel

end Course

/-- If others write tags, a silent node may be spared: while it is tagged for another cluster its load
record is dropped, and with it the time of its last heartbeat. -/
theorem silent_node_spared_ofPending :
    ∃ (v : Vigil) (t : Turn v.course) (r : Reading t.files t.now t.time v.course.loop)
      (n : NodeRecord),
      Course.ofPending.Initial ∧
        Vigil.Steps InMemory.Retagged (InMemory.idOf 1) ⟨Course.ofPending, False, none⟩ v ∧
          t.CanRead (InMemory.idOf 1) ∧ t.Reads r ∧ n ∈ r.nodes ∧ n.id = InMemory.idOf 1 ∧
            r.planner.isUpdating (InMemory.idOf 1) = false ∧
              t.heard (InMemory.idOf 1) v.listed v.heard = some 1000 ∧
                r.planner.loads.heartbeatTimeout < t.now - 1000 ∧
                  ¬ t.Terminates (InMemory.idOf 1) := by
  obtain ⟨⟨nodes, _, _, c⟩, hfirst, h⟩ := Option.bind_eq_some_iff.mp Course.spares_ofPending
  obtain ⟨away, haway, h⟩ := Option.bind_eq_some_iff.mp h
  obtain ⟨⟨_, _, _, missed⟩, hsecond, h⟩ := Option.bind_eq_some_iff.mp h
  obtain ⟨back, hback, h⟩ := Option.bind_eq_some_iff.mp h
  obtain ⟨⟨nodes', l, trace, _⟩, hthird, h⟩ := Option.bind_eq_some_iff.mp h
  have hchecks := Option.some.inj h
  simp only [Bool.and_eq_true, decide_eq_true_eq, Bool.not_eq_true', List.all_eq_true] at hchecks
  obtain ⟨⟨⟨⟨⟨⟨⟨⟨hread, haccepted⟩, hrecord⟩, hnone⟩, hready⟩, hread'⟩, hidle⟩, hsilent⟩, hspared⟩ :=
    hchecks
  obtain ⟨t, r, hr, hcan, rfl, -, -, -, hnodes, -, -⟩ := Course.exists_turn_of_visit? hfirst
  obtain ⟨t', -, -, hcan', rfl, -, -, -, -, -, -⟩ := Course.exists_turn_of_visit? hsecond
  obtain ⟨t'', r'', hr'', hcan'', -, htrace, hnow, htime, hnodes', hloop, result, hdone⟩ :=
    Course.exists_turn_of_visit? hthird
  let listed : Prop := False ∨ t.Lists (InMemory.idOf 1)
  let reported : Option Nat := latest (InMemory.idOf 1 = InMemory.idOf 1 ∧
    (t.after.loop.loads.recordHeartbeat (InMemory.idOf 1) ∅ ∅ 1000).2 = true ∧ listed) 1000
      (t.heard (InMemory.idOf 1) False none)
  have hreported : reported = some 1000 :=
    latest_eq_some_iff.mpr (.inl ⟨⟨rfl, haccepted, .inr (hr.lists (hnodes ▸ hread))⟩, rfl⟩)
  have hmissed : t'.heard (InMemory.idOf 1) listed reported = some 1000 :=
    t'.heard_eq_some hrecord hreported
  have hunseeded : ¬ t''.Seeds (InMemory.idOf 1) := by
    intro hseeds
    rcases (hr''.seeds_iff.mp hseeds).2 with ⟨o, ho, -⟩ | hstate
    · rw [htime, hnone] at ho
      cases ho
    · rw [hloop, hnodes'] at hstate
      exact hready hstate
  let v : Vigil := ⟨back, listed ∨ t'.Lists (InMemory.idOf 1),
    t'.heard (InMemory.idOf 1) listed reported⟩
  have hbeat : Vigil.Steps InMemory.Retagged (InMemory.idOf 1) ⟨Course.ofPending, False, none⟩
      ⟨t.after.beat 1000, listed, reported⟩ :=
    (Relation.ReflTransGen.single (.turn ⟨Course.ofPending, False, none⟩ t (hcan _))).tail
      (.beat t.after.loop t.after.service listed _ (InMemory.idOf 1) ∅ ∅ 1000)
  have haway' : Vigil.Steps InMemory.Retagged (InMemory.idOf 1) ⟨Course.ofPending, False, none⟩
      ⟨t'.after, listed ∨ t'.Lists (InMemory.idOf 1), t'.heard (InMemory.idOf 1) listed reported⟩ :=
    (hbeat.trans (Course.steps_relabel? haway _ _ _)).tail (.turn ⟨away, listed, reported⟩ t' (hcan' _))
  have hsteps : Vigil.Steps InMemory.Retagged (InMemory.idOf 1) ⟨Course.ofPending, False, none⟩ v :=
    haway'.trans (Course.steps_relabel? hback _ _ _)
  have hplanner : r''.planner = l.takeIn nodes' 2000 := by
    unfold Reading.planner
    rw [hloop, hnodes', hnow]
  rw [← hplanner] at hidle hsilent
  have hlate : r''.planner.loads.heartbeatTimeout < t''.now - 1000 := by
    have hpassed : t''.now - 1000 = 1000 := by omega
    rwa [hpassed]
  obtain ⟨n, hn, hid⟩ := List.mem_map.mp (hnodes' ▸ hread')
  refine ⟨v, t'', r'', n, Course.initial_ofHead _ _, hsteps, hcan'' _, hr'', hn, hid, hidle,
    latest_eq_some_iff.mpr (.inr ⟨fun hcounts => hunseeded hcounts.1, hmissed⟩), hlate, ?_⟩
  rintro ⟨doomed, ⟨x, hx, hquestion⟩ | ⟨loop, next, hleft⟩, hmem⟩
  · have hterminated := hspared x (htrace ▸ hx)
    rw [hquestion] at hterminated
    obtain rfl : doomed = [] := hterminated
    cases hmem
  · rw [hdone] at hleft
    cases hleft

end ClusterScaler
