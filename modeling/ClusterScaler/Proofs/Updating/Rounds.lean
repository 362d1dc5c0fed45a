import ClusterScaler.Proofs.Service.Serving
import ClusterScaler.Proofs.Tick.Hashes
import ClusterScaler.Proofs.Updating.Courses

/-!
# Rounds of a course

A course can be run round by round: a tick without failures, the update that it sent out, and an
operator's new configuration. Every such round is one in which a course may go on.
-/

set_option autoImplicit false

namespace ClusterScaler

open Program

/-- Let part of a tick go on to its end, and keep what was asked and answered. -/
def Service.follow? {α : Type} (s : Service) (p : Program TickAsk TickAsk.Reply α) :
    Option (α × Service × List TickExchange) :=
  p.runIf (fun (a : TickAsk) (m : Service × List TickExchange) => do
    let (reply, s) ← Service.answer? a.question m.1
    return (reply, s, m.2 ++ [⟨a, reply⟩])) (s, [])

theorem Service.runs_of_follow? {α : Type} (outside : InMemory → InMemory → Prop) {s s' : Service}
    {p : Program TickAsk TickAsk.Reply α} {a : α} {trace : List TickExchange}
    (h : s.follow? p = some (a, s', trace)) :
    Runs p trace a ∧ Follows (protocol outside) s trace s' := by
  obtain ⟨trace', hrun, hfollows⟩ := exists_runs_of_runIf (P := recorded (protocol outside))
    (fun a m reply m' hanswer => by
      obtain ⟨⟨reply', s₁⟩, hanswered, hreply⟩ := Option.bind_eq_some_iff.mp hanswer
      cases hreply
      exact ⟨servedBy_of_answer? hanswered, rfl⟩) h
  obtain ⟨hserved, htrace⟩ := hfollows.of_recorded
  obtain rfl : trace = trace' := htrace
  exact ⟨hrun, hserved⟩

/-- Let a tick run to its end, and keep what was asked and answered. -/
def Service.record? (s : Service) (files : FileStore) (now : Nat) (time : Duration)
    (l : ControlLoop) :
    Option ((Except LoopError TickSummary × ControlLoop) × Service × List TickExchange) :=
  ((tick files now time).run l).runIf (fun (a : TickAsk) (m : Service × List TickExchange) => do
    let (reply, s) ← Service.answer? a.question m.1
    return (reply, s, m.2 ++ [⟨a, reply⟩])) (s, [])

theorem Service.runs_of_record? {outside : InMemory → InMemory → Prop} {s s' : Service}
    {files : FileStore} {now : Nat} {time : Duration} {l : ControlLoop}
    {r : Except LoopError TickSummary × ControlLoop} {trace : List TickExchange}
    (h : s.record? files now time l = some (r, s', trace)) :
    Runs ((tick files now time).run l) trace r ∧ Follows (protocol outside) s trace s' :=
  runs_of_follow? outside h

/-- A configuration with one node of one type, which runs these commands to be set up. -/
def ClusterConfig.ofSetup (commands : List String) : ClusterConfig :=
  { (ControlLoop.ofHeadType { minWorkers := 1, maxWorkers := 1 }).config with
    setupCommands := commands }

namespace Course

variable {c c' : Course} {node : NodeId}

/-- A tick that runs to its end without a failure, and the course after it. -/
def turn? (c : Course) : Option (Course × List TickExchange) := do
  let (r, s, trace) ← c.service.record? .empty 0 ⟨0⟩ c.loop
  if ∀ x ∈ trace, Succeeded x then return (⟨r.2, { s with launches := [] }⟩, trace) else none

theorem exists_record_of_turn? {trace : List TickExchange} (h : c.turn? = some (c', trace)) :
    ∃ r s, c.service.record? .empty 0 ⟨0⟩ c.loop = some (r, s, trace) ∧
      c' = ⟨r.2, { s with launches := [] }⟩ ∧ ∀ x ∈ trace, Succeeded x := by
  obtain ⟨⟨r, s, trace'⟩, hrecord, hrest⟩ := Option.bind_eq_some_iff.mp h
  dsimp only at hrest
  split at hrest
  · next hsucceeded =>
    cases hrest
    exact ⟨r, s, hrecord, rfl, hsucceeded⟩
  · cases hrest

theorem exists_turn {trace : List TickExchange} (h : c.turn? = some (c', trace)) (node : NodeId) :
    ∃ t : Turn c, t.CanRead node ∧ t.after = c' ∧ t.trace = trace ∧ t.time = ⟨0⟩ := by
  obtain ⟨r, s, hrecord, rfl, hsucceeded⟩ := exists_record_of_turn? h
  obtain ⟨hrun, hfollows⟩ := Service.runs_of_record? hrecord
  refine ⟨⟨.empty, 0, ⟨0⟩, trace, .done r, s, s, hrun.begins, hfollows, .refl⟩, ?_, rfl, rfl, rfl⟩
  rintro reading ⟨rest, htrace⟩ hlists
  refine Reading.Succeeds.reads (fun x hx => hsucceeded x ?_) hlists
  change trace = _ at htrace
  rw [htrace]
  exact List.mem_cons_of_mem _ (List.mem_append_left _ hx)

/-- A tick that reads the nodes without a failure and runs to its end, with what it reads, the loop that
has read it, what it asks, and the course after it. -/
def visit? (c : Course) (now : Nat) :
    Option (List NodeRecord × ControlLoop × List TickExchange × Course) := do
  let (summary, l) := c.loop.begun .empty now ⟨0⟩
  let opened := c.service.drop ((c.loop.beginTick .empty).updaters.overdue ⟨0⟩)
  let ((result, l), s, read) ← opened.follow? (Tick.reconcile.run l)
  let nodes ← result.toOption
  let ((_, after), s, rest) ← s.follow? ((Tick.afterReconcile now ⟨0⟩ nodes summary).run l)
  if ∀ x ∈ read, Succeeded x then
    return (nodes, l, c.loop.firstExchange .empty ⟨0⟩ :: (read ++ rest),
      ⟨after, { s with launches := [] }⟩)
  else none

theorem exists_turn_of_visit? {now : Nat} {nodes : List NodeRecord} {l : ControlLoop}
    {trace : List TickExchange} (h : c.visit? now = some (nodes, l, trace, c')) :
    ∃ (t : Turn c) (r : Reading t.files t.now t.time c.loop), t.Reads r ∧
      (∀ node, t.CanRead node) ∧ t.after = c' ∧ t.trace = trace ∧ t.now = now ∧ t.time = ⟨0⟩ ∧
        r.nodes = nodes ∧ r.loop = l ∧ ∃ result, t.left = .done result := by
  obtain ⟨⟨⟨result, l'⟩, s, read⟩, hread, h⟩ := Option.bind_eq_some_iff.mp h
  obtain ⟨nodes', hnodes, h⟩ := Option.bind_eq_some_iff.mp h
  obtain ⟨⟨⟨summary, after⟩, s', rest⟩, hrest, h⟩ := Option.bind_eq_some_iff.mp h
  dsimp only at h
  split at h
  · next hsucceeded =>
    cases h
    obtain rfl := eq_ok_of_toOption hnodes
    obtain ⟨hreads, hlooked⟩ := Service.runs_of_follow? LeavesTags hread
    obtain ⟨hpasses, hpassed⟩ := Service.runs_of_follow? LeavesTags hrest
    let p : Passage .empty now ⟨0⟩ c.loop := ⟨⟨nodes, l, read, hreads⟩, summary, after, rest, hpasses⟩
    have hopened : (c.loop.firstExchange .empty ⟨0⟩).op.question.ServedBy LeavesTags () c.service
        (c.service.drop ((c.loop.beginTick .empty).updaters.overdue ⟨0⟩)) := rfl
    have hfollows : Follows (Service.protocol LeavesTags) c.service
        (c.loop.firstExchange .empty ⟨0⟩ :: (read ++ rest)) s' :=
      .cons hopened (follows_append.mpr ⟨s, hlooked, hpassed⟩)
    let t : Turn c := ⟨.empty, now, ⟨0⟩, _, _, s', s', p.runs_tick.begins, hfollows, .refl⟩
    have hreads : t.Reads p.toReading := ⟨rest, rfl⟩
    refine ⟨t, p.toReading, hreads, fun node r hr hlists => ?_, rfl, rfl, rfl, rfl, rfl, rfl, _, rfl⟩
    obtain rfl : r = p.toReading := Reading.Precedes.unique hr hreads
    have hall : p.toReading.Succeeds := hsucceeded
    exact hall.reads hlists
  · cases h

/-- The first updater goes on to its end, and its end is noted. -/
def finish? (c : Course) : Option Course :=
  match c.service.updaters with
  | ⟨u, .ask r next⟩ :: others => do
    let (result, p) ← Service.finish (.ask r next) c.service.provider
    let s := Service.goOn { c.service with provider := p } u others (.done result)
    return ⟨c.loop.complete s.ends, { s with ends := [] }⟩
  | _ => none

theorem exists_steps_of_finish? (outside : InMemory → InMemory → Prop)
    (h : c.finish? = some c') :
    ∃ s, Service.Steps outside c.service s ∧
      c' = ⟨c.loop.complete s.ends, { s with ends := [] }⟩ := by
  unfold finish? at h
  split at h
  · next u r next others hupdaters =>
    obtain ⟨⟨result, p⟩, hfinish, hreturn⟩ := Option.bind_eq_some_iff.mp h
    cases hreturn
    have hgoing : c.service.goOn u others (.ask r next) = c.service :=
      congrArg (fun updaters => { c.service with updaters }) hupdaters.symm
    have hsteps : Service.Steps outside (c.service.goOn u others (.ask r next))
        (Service.goOn { c.service with provider := p } u others (.done result)) :=
      Service.steps_finish_updater hfinish
    rw [hgoing] at hsteps
    exact ⟨_, hsteps, rfl⟩
  · cases h

theorem steps_finish? (h : c.finish? = some c') : Steps node c c' := by
  obtain ⟨s, hsteps, rfl⟩ := exists_steps_of_finish? LeavesTags h
  exact (Relation.ReflTransGen.single (.beside hsteps)).tail (.noteEnds c.loop s)

/-- A round: a tick, the update that it sent out, and a new configuration. -/
def round? (c : Course) (config : ClusterConfig) : Option Course := do
  let (c, _) ← c.turn?
  let c ← c.finish?
  return { c with loop := c.loop.obey .empty (.reconfigure config) }

theorem steps_round? {config : ClusterConfig} (h : c.round? config = some c') :
    Steps node c c' := by
  obtain ⟨⟨c₁, trace⟩, hturn, hrest⟩ := Option.bind_eq_some_iff.mp h
  obtain ⟨c₂, hfinish, hreturn⟩ := Option.bind_eq_some_iff.mp hrest
  cases hreturn
  obtain ⟨t, hread, rfl, -, -⟩ := exists_turn hturn node
  exact ((Relation.ReflTransGen.single (.turn t hread)).trans (steps_finish? hfinish)).tail
    (.obey c₂.loop c₂.service .empty (.reconfigure config))

/-- The course of a new loop whose one node runs and has not been brought up to date. Commands on it
that contain a pattern may fail. -/
def ofConfig? (config : ClusterConfig) (failing : List (String × Int)) : Option Course := do
  let l ← (ControlLoop.new .empty config).toOption
  let hashes ← l.hashes.get? config.headNodeType
  let p := ({ failing } : InMemory)
  return ⟨l, { provider := p.addNode (l.launchTags config.headNodeType hashes) .running }⟩

theorem initial_ofConfig? {config : ClusterConfig} {failing : List (String × Int)}
    (h : ofConfig? config failing = some c) : c.Initial := by
  obtain ⟨l, hnew, hrest⟩ := Option.bind_eq_some_iff.mp h
  obtain ⟨hashes, -, hreturn⟩ := Option.bind_eq_some_iff.mp hrest
  cases hreturn
  obtain ⟨hidle, hfinished⟩ := ControlLoop.idle_of_new (eq_ok_of_toOption hnew)
  have hempty : ({ failing } : InMemory).Numbered := fun id n hn => by cases hn
  exact ⟨hempty.addNode _ _, rfl, rfl, rfl, rfl, congrArg UpdaterPool.slots hidle, hfinished⟩

end Course

end ClusterScaler
