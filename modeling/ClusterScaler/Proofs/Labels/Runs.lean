import ClusterScaler.Proofs.Breaker.Twins
import ClusterScaler.Proofs.Exclusion.Instants
import ClusterScaler.Proofs.Labels.Nodes
import ClusterScaler.Proofs.Labels.Terminations
import ClusterScaler.Proofs.Service.Copies
import ClusterScaler.Proofs.Updating.Rounds

/-!
# Runs in which hashes are true

While the contents of its mounts stay the same, a loop holds the hashes of its configuration in every
run, whatever commands it is given and whatever it is answered. So the hashes on the nodes that it has
made and in the updates that it sends out are true, and under one configuration it terminates none of
its own nodes for its type or its launch hash.
-/

set_option autoImplicit false

namespace ClusterScaler

open Program

namespace ControlLoop

/-- How a loop goes on while the contents of its mounts stay the same: by a tick, run to its end or cut
short, whatever is answered, or by what happens between ticks. -/
inductive Goes (files : FileStore) : ControlLoop → ControlLoop → Prop where
  | tick {l : ControlLoop} (now : Nat) (time : Duration) {trace : List TickExchange}
      {left : TickRest} :
    Begins ((tick files now time).run l) trace left → Goes files l (Tick.standing left)
  | complete (l : ControlLoop) (ends : List (NodeId × UpdaterEnd)) : Goes files l (l.complete ends)
  /-- Heartbeats, demand or commands come in, or a status is published. -/
  | feeds (l : ControlLoop) (feeds : Feeds) : Goes files l { l with toFeeds := feeds }
  | obey (l : ControlLoop) (command : ControlCommand) : Goes files l (l.obey files command)
  /-- All updaters have been waited for. -/
  | drain (l : ControlLoop) (time : Duration) :
    Goes files l { l with
      updaters := (l.updaters.drain time).2
      finished := l.finished ++ (l.updaters.drain time).1 }
  /-- The loop is shut down. -/
  | stop (l : ControlLoop) : Goes files l { l with updaters := l.updaters.abortAll }

/-- A loop arises from a new one while the contents of its mounts stay the same. -/
def Arises (files : FileStore) (l : ControlLoop) : Prop :=
  ∃ config start, Fresh files config start ∧ Relation.ReflTransGen (Goes files) start l

variable {files : FileStore} {config : ClusterConfig} {l l' : ControlLoop}

theorem Goes.hashesFor (hgoes : Goes files l l') (h : hashesFor files l.config = .ok l.hashes) :
    hashesFor files l'.config = .ok l'.hashes := by
  cases hgoes with
  | tick now time hbegins =>
    obtain ⟨hconfig, hhashes⟩ := Tick.configured_standing hbegins
    rw [hconfig, hhashes]
    exact hashesFor_beginTick h
  | complete ends => exact h
  | feeds feeds => exact h
  | obey command => exact hashesFor_obey h command
  | drain => exact h
  | stop => exact h

theorem Arises.hashesFor (h : Arises files l) : hashesFor files l.config = .ok l.hashes := by
  obtain ⟨config, start, hfresh, hgoes⟩ := h
  induction hgoes with
  | refl =>
    obtain ⟨hconfig, hhashes⟩ := hfresh.hashesFor
    rw [hconfig]
    exact hhashes
  | tail _ hstep ih => exact hstep.hashesFor ih

end ControlLoop

namespace Course

/-- How a course goes on while no new configuration is taken over, the contents of the mounts stay the
same, and others keep to their own nodes. -/
inductive Goes (files : FileStore) (others : NodeId → Prop) : Course → Course → Prop where
  | beside {l : ControlLoop} {s s' : Service} :
    Service.Steps (Apart others) s s' → Goes files others ⟨l, s⟩ ⟨l, s'⟩
  /-- A tick, run to its end or cut short. Its launch orders and the updaters may go on until it is cut
  short, and what is left of the orders then is dropped. -/
  | tick {l : ControlLoop} {s s' s'' : Service} (now : Nat) (time : Duration)
      {trace : List TickExchange} {left : TickRest} :
    Begins ((tick files now time).run l) trace left →
      Follows (Service.protocol (Apart others)) s trace s' →
        Service.Steps (Apart others) s' s'' → (l.beginTick files).config = l.config →
          Goes files others ⟨l, s⟩ ⟨Tick.standing left, { s'' with launches := [] }⟩
  | noteEnds (l : ControlLoop) (s : Service) :
    Goes files others ⟨l, s⟩ ⟨l.complete s.ends, { s with ends := [] }⟩
  /-- Heartbeats, demand or commands come in, or a status is published. -/
  | feeds (l : ControlLoop) (s : Service) (feeds : Feeds) :
    Goes files others ⟨l, s⟩ ⟨{ l with toFeeds := feeds }, s⟩
  | obey {l : ControlLoop} (s : Service) {command : ControlCommand} :
    (l.obey files command).config = l.config →
      Goes files others ⟨l, s⟩ ⟨l.obey files command, s⟩
  /-- All updaters have been waited for. -/
  | drain (l : ControlLoop) (time : Duration) {s : Service} : (∀ n, s.flights n = 0) →
    Goes files others ⟨l, s⟩
      ⟨{ l with
        updaters := (l.updaters.drain time).2
        finished := l.finished ++ (l.updaters.drain time).1 }, s⟩
  /-- The loop is shut down. -/
  | stop (l : ControlLoop) (s : Service) :
    Goes files others ⟨l, s⟩
      ⟨{ l with updaters := l.updaters.abortAll }, s.drop l.updaters.slots.keys⟩

/-- A course arises from a new loop and the nodes of others. -/
def Arises (files : FileStore) (others : NodeId → Prop) (c : Course) : Prop :=
  ∃ config start, start.loop.Fresh files config ∧ start.Initial ∧
    (∀ id n, start.service.provider.nodes.get? id = some n → others id) ∧
      Relation.ReflTransGen (Goes files others) start c

theorem Arises.trans {files : FileStore} {others : NodeId → Prop} {c c' : Course}
    (h : c.Arises files others) (hgoes : Relation.ReflTransGen (Goes files others) c c') :
    c'.Arises files others := by
  obtain ⟨config, start, hfresh, hinitial, hothers, hstart⟩ := h
  exact ⟨config, start, hfresh, hinitial, hothers, hstart.trans hgoes⟩

/-- The loop holds the hashes of its configuration, and its own nodes carry them. -/
structure Labelled (files : FileStore) (others : NodeId → Prop) (c : Course) : Prop where
  hashes : hashesFor files c.loop.config = .ok c.loop.hashes
  service : c.service.Labelled c.loop.hashes others

variable {files : FileStore} {others : NodeId → Prop} {c c' : Course}

/-- The loop of a course goes on with it, or stays as it is. -/
theorem Goes.loop (h : Goes files others c c') :
    c'.loop = c.loop ∨ ControlLoop.Goes files c.loop c'.loop := by
  cases h with
  | beside hsteps => exact .inl rfl
  | tick now time hbegins hfollows hbeside hconfig => exact .inr (.tick now time hbegins)
  | noteEnds l s => exact .inr (.complete l s.ends)
  | feeds l s feeds => exact .inr (.feeds l feeds)
  | obey s hconfig => exact .inr (.obey _ _)
  | drain l time hnone => exact .inr (.drain l time)
  | stop l s => exact .inr (.stop l)

theorem Goes.config (h : Goes files others c c') : c'.loop.config = c.loop.config := by
  cases h with
  | tick now time hbegins hfollows hbeside hconfig =>
    obtain ⟨hleft, -⟩ := Tick.configured_standing hbegins
    exact hleft.trans hconfig
  | obey s hconfig => exact hconfig
  | _ => rfl

theorem Arises.loop (h : c.Arises files others) : c.loop.Arises files := by
  obtain ⟨config, start, hfresh, -, -, hgoes⟩ := h
  refine ⟨config, start.loop, hfresh, ?_⟩
  induction hgoes with
  | refl => exact .refl
  | tail _ hstep ih =>
    rcases hstep.loop with heq | hloop
    · rw [heq]
      exact ih
    · exact ih.tail hloop

/-- A tick that takes no new configuration over leaves the hashes, and its exchange is one of faithful
questions. -/
theorem Labelled.faithful {now : Nat} {time : Duration} {trace : List TickExchange}
    {left : TickRest} (h : c.Labelled files others)
    (hbegins : Begins ((tick files now time).run c.loop) trace left)
    (hconfig : (c.loop.beginTick files).config = c.loop.config) :
    (c.loop.beginTick files).hashes = c.loop.hashes ∧
      ∀ x ∈ trace, x.op.question.Faithful files c.loop.hashes := by
  have hbegun := ControlLoop.hashesFor_beginTick h.hashes
  rw [hconfig, h.hashes] at hbegun
  have hsame := (Except.ok.inj hbegun).symm
  refine ⟨hsame, fun x hx => ?_⟩
  obtain ⟨-, -, hfaithful⟩ := Tick.faithful_of_asks h.hashes (hbegins.asks_of_mem hx)
  rw [hsame] at hfaithful
  exact hfaithful

theorem Labelled.goes (h : c.Labelled files others) (hgoes : Goes files others c c') :
    c'.Labelled files others := by
  have hhashes : hashesFor files c'.loop.config = .ok c'.loop.hashes := by
    rcases hgoes.loop with heq | hloop
    · rw [heq]
      exact h.hashes
    · exact hloop.hashesFor h.hashes
  have hsame : c'.loop.hashes = c.loop.hashes := by
    have hold := h.hashes
    rw [← hgoes.config, hhashes] at hold
    exact Except.ok.inj hold
  refine ⟨hhashes, ?_⟩
  rw [hsame]
  cases hgoes with
  | beside hsteps => exact h.service.steps hsteps
  | tick now time hbegins hfollows hbeside hconfig =>
    obtain ⟨-, hfaithful⟩ := h.faithful hbegins hconfig
    obtain ⟨hanswered, -⟩ := h.service.follows hfaithful hfollows
    have hservice := hanswered.steps hbeside
    -- what was left of the launch orders is dropped
    exact ⟨⟨hservice.sound.numbered, hservice.sound.updaters, fun _ hmem => nomatch hmem⟩,
      hservice.nodes, fun _ hmem => nomatch hmem⟩
  | noteEnds l s =>
    exact ⟨⟨h.service.sound.numbered, h.service.sound.updaters, h.service.sound.launches⟩,
      h.service.nodes, h.service.launches⟩
  | feeds l s feeds => exact h.service
  | obey s hconfig => exact h.service
  | drain l time hnone => exact h.service
  | stop l s =>
    refine ⟨⟨h.service.sound.numbered, ?_, h.service.sound.launches⟩, h.service.nodes,
      h.service.launches⟩
    exact fun x hx => h.service.sound.updaters x (List.mem_filter.mp hx).1

theorem Arises.labelled (h : c.Arises files others) : c.Labelled files others := by
  obtain ⟨config, start, hfresh, hinitial, hothers, hgoes⟩ := h
  induction hgoes with
  | refl =>
    obtain ⟨hconfig, hhashes⟩ := hfresh.hashesFor
    rw [← hconfig] at hhashes
    refine ⟨hhashes, ⟨⟨hinitial.numbered, ?_, ?_⟩, fun id n hn => .inl (hothers id n hn), ?_⟩⟩
    · rw [hinitial.updaters]
      exact fun _ hmem => nomatch hmem
    · rw [hinitial.launches]
      exact fun _ hmem => nomatch hmem
    · rw [hinitial.launches]
      exact fun _ hmem => nomatch hmem
  | tail _ hstep ih => exact ih.goes hstep

/-- What a tick reads of a node that is not that of others is labelled. -/
theorem Labelled.reading {now : Nat} {time : Duration} {asked : List TickExchange} {left : TickRest}
    {s : Service} (h : c.Labelled files others)
    (hbegins : Begins ((tick files now time).run c.loop) asked left)
    (hfollows : Follows (Service.protocol (Apart others)) c.service asked s)
    (hconfig : (c.loop.beginTick files).config = c.loop.config)
    {r : Reading files now time c.loop} (hprecedes : r.Precedes asked) :
    ∀ n ∈ r.nodes, others n.id ∨ n.tags.Labelled r.planner.hashes := by
  obtain ⟨hhashes, hfaithful⟩ := h.faithful hbegins hconfig
  obtain ⟨-, htells⟩ := h.service.follows hfaithful hfollows
  obtain ⟨rest, rfl⟩ := hprecedes
  rw [r.hashes_planner, hhashes]
  refine r.tells (fun id tags => others id ∨ tags.Labelled c.loop.hashes) ?_
  intro x hx
  exact htells x (List.mem_cons_of_mem _ (List.mem_append_left _ hx))

/-- A node that is not that of others is never condemned for its type or its launch hash. -/
theorem Labelled.condemned {now : Nat} {time : Duration} {asked : List TickExchange}
    {left : TickRest} {s : Service} (h : c.Labelled files others)
    (hbegins : Begins ((tick files now time).run c.loop) asked left)
    (hfollows : Follows (Service.protocol (Apart others)) c.service asked s)
    (hconfig : (c.loop.beginTick files).config = c.loop.config)
    {r : Reading files now time c.loop} (hprecedes : r.Precedes asked) :
    ∀ e ∈ r.condemned, ¬ others e.1 → e.2 ≠ .unknownType ∧ e.2 ≠ .launchDrift := by
  intro e he hown
  rcases List.mem_append.mp he with hforced | hexcess
  · obtain ⟨n, hn, hentry⟩ := List.mem_filterMap.mp hforced
    obtain ⟨reason, hreason, rfl⟩ := Option.map_eq_some_iff.mp hentry
    -- the record tells the label that the node carries, so another reason condemned it
    have hlabelled := (h.reading hbegins hfollows hconfig hprecedes n hn).resolve_left hown
    obtain ⟨htype, hdrift⟩ := r.planner.forcedReason_of_labelled hlabelled now
    rw [hreason] at htype hdrift
    exact ⟨fun heq => htype (congrArg some heq), fun heq => hdrift (congrArg some heq)⟩
  · obtain ⟨id, -, rfl⟩ := List.mem_map.mp hexcess
    exact ⟨nofun, nofun⟩

end Course

/-- While the contents of the mounts stay the same, hashes are true in every run. A loop holds the
hashes of its configuration, at rest and whenever it asks something. New nodes are asked for with the
launch hash of the template that they are asked for with, and an update brings the files hash of the
mounts that it copies and of its commands, but for the address of the head node. And as long as no new
configuration is taken over, every node that is not that of others is labelled with the launch hash
of its type, and none of these is ever terminated for its type or its launch hash. -/
theorem hashes_tell_the_truth (files : FileStore) :
    (∀ l : ControlLoop, l.Arises files → hashesFor files l.config = .ok l.hashes ∧
      ∀ now time a, Asks ((tick files now time).run l) a →
        hashesFor files a.loop.config = .ok a.loop.hashes ∧
          (∀ template tags n, a.question.LeadsTo (.createNodes template tags n) →
            tags.get? Tags.launchConfig = some template.hash.hex) ∧
          (∀ u, a.question = .dispatch u → u.request.Faithful files ∧
            ∀ trace result, Runs u.routine trace result →
              result.Copies u.request.mounts.entries (copiedIn trace))) ∧
    (∀ (others : NodeId → Prop) (c : Course), c.Arises files others →
      (∀ id n, c.service.provider.nodes.get? id = some n →
        others id ∨ n.tags.Labelled c.loop.hashes) ∧
      ∀ now time asked a next s q,
        Begins ((tick files now time).run c.loop) asked (.ask a next) →
          Follows (Service.protocol (Apart others)) c.service asked s →
            (c.loop.beginTick files).config = c.loop.config →
              a.question.LeadsTo q → q.terminates = true →
                ∃ r : Reading files now time c.loop, r.Precedes asked ∧
                  q = .terminateNodes (r.condemned.map (·.1)) ∧
                    ∀ e ∈ r.condemned, ¬ others e.1 →
                      e.2 ≠ .unknownType ∧ e.2 ≠ .launchDrift) := by
  constructor
  · intro l harises
    have hhashes := harises.hashesFor
    refine ⟨hhashes, ?_⟩
    intro now time a hasks
    obtain ⟨hconfig, hsame, hfaithful⟩ := Tick.faithful_of_asks hhashes hasks
    refine ⟨?_, ?_, ?_⟩
    · rw [hconfig, hsame]
      exact ControlLoop.hashesFor_beginTick hhashes
    · intro template tags n hleads
      rcases hleads.creates with hrequest | ⟨o, horder, rfl, rfl⟩
      · -- a tick itself asks for no nodes
        have hplain := hfaithful.plain
        rw [hrequest] at hplain
        rcases hplain with hlooks | ⟨nodes, heq⟩
        · cases hlooks
        · cases heq
      · exact (hfaithful.order o horder).1
    · intro u hu
      exact ⟨hfaithful.update u hu, fun trace result hrun => Update.copies_of_runs hrun⟩
  · intro others c harises
    have hlabelled := harises.labelled
    refine ⟨hlabelled.service.nodes, ?_⟩
    intro now time asked a next s q hbegins hfollows hconfig hleads hq
    obtain ⟨r, hprecedes, hterminates⟩ := Tick.exists_condemned hbegins hleads hq
    exact ⟨r, hprecedes, hterminates,
      hlabelled.condemned hbegins hfollows hconfig hprecedes⟩

namespace Course

variable {others : NodeId → Prop} {c c' : Course}

/-- The course of a new loop that has no nodes yet. Nodes run as soon as they are made, and commands
on them that contain a pattern may fail. -/
def ofEmpty? (config : ClusterConfig) (failing : List (String × Int)) : Option Course := do
  let l ← (ControlLoop.new .empty config).toOption
  return ⟨l, { provider := { options := { autoRun := true }, failing } }⟩

theorem arises_ofEmpty? {config : ClusterConfig} {failing : List (String × Int)}
    (h : ofEmpty? config failing = some c) : c.Arises .empty (fun _ => False) := by
  obtain ⟨l, hl, hreturn⟩ := Option.bind_eq_some_iff.mp h
  cases hreturn
  have hnew := eq_ok_of_toOption hl
  obtain ⟨hidle, hfinished⟩ := ControlLoop.idle_of_new hnew
  refine ⟨config, _, ControlLoop.fresh_of_new hnew, ?_, fun _ _ hn => (by cases hn), .refl⟩
  exact ⟨fun _ _ hn => (by cases hn), rfl, rfl, rfl, rfl, congrArg UpdaterPool.slots hidle,
    hfinished⟩

/-- A course goes on by a tick before which no commands have come in. -/
theorem goes_turn? {trace : List TickExchange} (h : c.turn? = some (c', trace))
    (hnone : c.loop.commands = []) : Goes .empty others c c' := by
  obtain ⟨r, s, hrecord, rfl, -⟩ := exists_record_of_turn? h
  obtain ⟨hrun, hfollows⟩ := Service.runs_of_record? hrecord
  have hconfig := c.loop.config_beginTick .empty (by rw [hnone]; exact fun _ => List.not_mem_nil)
  exact .tick 0 ⟨0⟩ hrun.begins hfollows .refl hconfig

theorem goes_finish? (h : c.finish? = some c') :
    Relation.ReflTransGen (Goes .empty others) c c' := by
  obtain ⟨s, hsteps, rfl⟩ := exists_steps_of_finish? (Apart others) h
  exact (Relation.ReflTransGen.single (.beside hsteps)).tail (.noteEnds c.loop s)

theorem exists_asking_of_turn? (others : NodeId → Prop) {trace : List TickExchange}
    (h : c.turn? = some (c', trace)) {x : TickExchange} (hx : x ∈ trace) :
    ∃ asked next s, Begins ((tick .empty 0 ⟨0⟩).run c.loop) asked (.ask x.op next) ∧
      Follows (Service.protocol (Apart others)) c.service asked s := by
  obtain ⟨r, s, hrecord, -, -⟩ := exists_record_of_turn? h
  obtain ⟨hrun, hfollows⟩ := Service.runs_of_record? hrecord
  obtain ⟨asked, rest, rfl⟩ := List.append_of_mem hx
  obtain ⟨m, hbefore, -⟩ := follows_append.mp hfollows
  obtain ⟨left, hfirst, hlast⟩ := hrun.begins.split
  cases hlast with
  | ask _ => exact ⟨asked, _, m, hfirst, hbefore⟩

/-- A new cluster makes its node, sends an updater to it, which fails, and terminates the node. -/
theorem terminates_ofSetup :
    (do
      let start ← ofEmpty? (.ofSetup ["false"]) [("false", 1)]
      let (ordered, launches) ← start.turn?
      let (updated, updates) ← ordered.turn?
      let c ← updated.finish?
      let (_, trace) ← c.turn?
      return start.loop.commands.isEmpty && ordered.loop.commands.isEmpty &&
        c.loop.commands.isEmpty && (ordersOf launches).any (0 < ·.count) &&
          !(updatesOf updates).isEmpty &&
            trace.any (·.op.question.terminated = [InMemory.idOf 1])) = some true := by
  decide +kernel

end Course

/-- In that course the order for the node and the update that it is sent carry true hashes, and the node
is not terminated for its type or its launch hash. -/
theorem hashes_tell_the_truth_ofSetup :
    ∃ start ordered c : Course, start.loop.Arises .empty ∧ ordered.loop.Arises .empty ∧
      c.Arises .empty (fun _ => False) ∧
      (∃ a template tags n, Asks ((tick .empty 0 ⟨0⟩).run start.loop) a ∧
        a.question.LeadsTo (.createNodes template tags n) ∧
          tags.get? Tags.launchConfig = some template.hash.hex) ∧
      (∃ a u, Asks ((tick .empty 0 ⟨0⟩).run ordered.loop) a ∧ a.question = .dispatch u ∧
        u.request.Faithful .empty) ∧
      ∃ asked a next s, ∃ r : Reading .empty 0 ⟨0⟩ c.loop,
        Begins ((tick .empty 0 ⟨0⟩).run c.loop) asked (.ask a next) ∧
          Follows (Service.protocol (Apart fun _ => False)) c.service asked s ∧
            r.Precedes asked ∧ a.question.terminated = [InMemory.idOf 1] ∧
              r.condemned.map (·.1) = [InMemory.idOf 1] ∧
                ∀ e ∈ r.condemned, e.2 ≠ .unknownType ∧ e.2 ≠ .launchDrift := by
  obtain ⟨start, hstart, h⟩ := Option.bind_eq_some_iff.mp Course.terminates_ofSetup
  obtain ⟨⟨ordered, launches⟩, hfirst, h⟩ := Option.bind_eq_some_iff.mp h
  obtain ⟨⟨updated, updates⟩, hsecond, h⟩ := Option.bind_eq_some_iff.mp h
  obtain ⟨c, hfinish, h⟩ := Option.bind_eq_some_iff.mp h
  obtain ⟨⟨last, trace⟩, hthird, h⟩ := Option.bind_eq_some_iff.mp h
  have hcourse := Option.some.inj h
  simp only [Bool.and_eq_true, List.isEmpty_iff, List.any_eq_true, decide_eq_true_eq] at hcourse
  obtain ⟨⟨⟨⟨⟨hnone, hnone'⟩, hnone''⟩, o, ho, hcount⟩, hupdates⟩, x, hx, hterminated⟩ := hcourse
  have harises : start.Arises .empty (fun _ => False) := Course.arises_ofEmpty? hstart
  have harises' : ordered.Arises .empty (fun _ => False) :=
    harises.trans (.single (Course.goes_turn? hfirst hnone))
  have harises'' : c.Arises .empty (fun _ => False) :=
    (harises'.trans (.single (Course.goes_turn? hsecond hnone'))).trans
      (Course.goes_finish? hfinish)
  obtain ⟨hloops, hcourses⟩ := hashes_tell_the_truth .empty
  refine ⟨start, ordered, c, harises.loop, harises'.loop, harises'', ?_, ?_, ?_⟩
  · obtain ⟨y, hy, horder⟩ := List.mem_filterMap.mp ho
    obtain ⟨asked, next, s, hbegins, -⟩ := Course.exists_asking_of_turn? (fun _ => False) hfirst hy
    have hquestion := Question.order?_eq_some_iff.mp horder
    obtain ⟨n, hasks⟩ := o.exists_asks hcount
    have hleads : y.op.question.LeadsTo (.createNodes o.template o.tags n) := by
      rw [hquestion]
      exact hasks
    obtain ⟨-, hcreates, -⟩ := (hloops start.loop harises.loop).2 0 ⟨0⟩ y.op hbegins.asks
    exact ⟨y.op, o.template, o.tags, n, hbegins.asks, hleads, hcreates _ _ _ hleads⟩
  · obtain ⟨u, hu⟩ := List.exists_mem_of_ne_nil _ (by simpa using hupdates)
    obtain ⟨y, hy, hupdate⟩ := List.mem_filterMap.mp hu
    obtain ⟨asked, next, s, hbegins, -⟩ := Course.exists_asking_of_turn? (fun _ => False) hsecond hy
    have hquestion := Question.update?_eq_some_iff.mp hupdate
    obtain ⟨-, -, hdispatches⟩ := (hloops ordered.loop harises'.loop).2 0 ⟨0⟩ y.op hbegins.asks
    exact ⟨y.op, u, hbegins.asks, hquestion, (hdispatches u hquestion).1⟩
  · obtain ⟨asked, next, s, hbegins, hfollows⟩ := Course.exists_asking_of_turn? (fun _ => False) hthird hx
    obtain ⟨q, hquestion, hterminates⟩ :=
      Question.exists_request_of_terminated (by rw [hterminated]; exact List.cons_ne_nil _ _)
    have hconfig :=
      c.loop.config_beginTick .empty (by rw [hnone'']; exact fun _ => List.not_mem_nil)
    have hleads : x.op.question.LeadsTo q := by
      rw [hquestion]
      rfl
    obtain ⟨r, hprecedes, rfl, hreasons⟩ := (hcourses (fun _ => False) c harises'').2 0 ⟨0⟩ asked
      x.op next s q hbegins hfollows hconfig hleads hterminates
    have hcondemned : r.condemned.map (·.1) = [InMemory.idOf 1] := by
      rw [hquestion] at hterminated
      exact hterminated
    exact ⟨asked, x.op, next, s, r, hbegins, hfollows, hprecedes, hterminated, hcondemned,
      fun e he => hreasons e he not_false⟩

end ClusterScaler
