import ClusterScaler.Proofs.Tick.Begin
import ClusterScaler.Proofs.Tick.Plan
import ClusterScaler.Proofs.Tick.Steps

/-!
# The run of a tick

A tick that does not fail first reads its nodes and then passes: it plans and carries the plan
out. A passage keeps the two parts of such a run together with what was asked and answered in
each.
-/

set_option autoImplicit false

namespace ClusterScaler

open Program

/-- A question of a tick with its answer. -/
abbrev TickExchange := Exchange TickAsk TickAsk.Reply

/-- A request was carried out. -/
def Request.Succeeded : (r : Request) → r.Reply → Prop
  | .listNodes _, a => a.isOk = true
  | .isRunning _, a | .isTerminated _, a => a.isOk = true
  | .nodeTags _, a => a.isOk = true
  | .internalIp _, a | .externalIp _, a => a.isOk = true
  | .setNodeTags .., a | .createNodes .., a | .terminateNode _, a | .terminateNodes _, a =>
    a.isOk = true
  | .commandRunner .., a => a.isOk = true
  | .run .., a => a.isOk = true
  | .sync .., a => a.isOk = true
  | .pause _, _ => True

instance Request.decidableSucceeded : (r : Request) → (a : r.Reply) → Decidable (r.Succeeded a)
  | .listNodes _, a => inferInstanceAs (Decidable (a.isOk = true))
  | .isRunning _, a | .isTerminated _, a => inferInstanceAs (Decidable (a.isOk = true))
  | .nodeTags _, a => inferInstanceAs (Decidable (a.isOk = true))
  | .internalIp _, a | .externalIp _, a => inferInstanceAs (Decidable (a.isOk = true))
  | .setNodeTags .., a | .createNodes .., a | .terminateNode _, a | .terminateNodes _, a =>
    inferInstanceAs (Decidable (a.isOk = true))
  | .commandRunner .., a => inferInstanceAs (Decidable (a.isOk = true))
  | .run .., a => inferInstanceAs (Decidable (a.isOk = true))
  | .sync .., a => inferInstanceAs (Decidable (a.isOk = true))
  | .pause _, _ => inferInstanceAs (Decidable True)

namespace Question

/-- A question was answered without any failure. -/
def Succeeded : (q : Question) → q.Reply → Prop
  | .request r, d => r.Succeeded d.answer
  | .awaitLaunch, d => ∃ report, d.answer = .reported report ∧ report.error = none
  | .dispatch _, _ | .abandon _, _ | .launch _, _ => True

instance decidableSucceeded : (q : Question) → (r : q.Reply) → Decidable (q.Succeeded r)
  | .request r, d => inferInstanceAs (Decidable (r.Succeeded d.answer))
  | .awaitLaunch, ⟨.reported report, _⟩ =>
    decidable_of_iff (report.error = none)
      ⟨fun h => ⟨report, rfl, h⟩, fun ⟨_, hreport, h⟩ => LaunchEnd.reported.inj hreport ▸ h⟩
  | .awaitLaunch, ⟨.panicked, _⟩ => isFalse fun ⟨_, hreport, _⟩ => nomatch hreport
  | .dispatch _, _ | .abandon _, _ | .launch _, _ => inferInstanceAs (Decidable True)

end Question

/-- An exchange of a tick without any failure. -/
def Succeeded (x : TickExchange) : Prop := x.op.question.Succeeded x.reply

instance : DecidablePred Succeeded := fun x => x.op.question.decidableSucceeded x.reply

/-- An answer to a request that was carried out. -/
def Request.succeed : (r : Request) → r.Reply
  | .listNodes _ => .ok []
  | .isRunning _ | .isTerminated _ => .ok true
  | .nodeTags _ => .ok ∅
  | .internalIp _ | .externalIp _ => .ok ""
  | .setNodeTags .. | .createNodes .. | .terminateNode _ | .terminateNodes _ => .ok ()
  | .commandRunner .. => .ok (.recording none)
  | .run .. => .ok {}
  | .sync .. => .ok ()
  | .pause _ => ()

theorem Request.succeeded_succeed (r : Request) : r.Succeeded r.succeed := by
  cases r <;> first | rfl | trivial

/-- An answer to a question without a failure. -/
def Question.succeed : (q : Question) → q.Reply
  | .request r => ⟨r.succeed, []⟩
  | .dispatch _ | .abandon _ | .launch _ => ()
  | .awaitLaunch => ⟨.reported ⟨"", 0, none⟩, []⟩

theorem Question.succeeded_succeed (q : Question) : q.Succeeded q.succeed := by
  cases q with
  | request r => exact r.succeeded_succeed
  | dispatch u => trivial
  | abandon nodes => trivial
  | launch order => trivial
  | awaitLaunch => exact ⟨_, rfl, rfl⟩

/-- The summary and the loop with which a tick goes to the provider. -/
def ControlLoop.begun (l : ControlLoop) (files : FileStore) (now : Nat) (time : Duration) :
    TickSummary × ControlLoop :=
  let l := l.beginTick files
  l.mergeUpdates now time (TickSummary.start l.ticks now)

/-- A tick goes to the provider with the outcomes of updaters merged, which changes what is known about
nodes. -/
theorem ControlLoop.begun_eq (l : ControlLoop) (files : FileStore) (now : Nat) (time : Duration) :
    ∃ loads states tainted updateFailures, (l.begun files now time).2 = { l.beginTick files with
      loads, states, tainted, updateFailures
      updaters := ((l.beginTick files).updaters.collect time).2, finished := [] } :=
  (l.beginTick files).mergeUpdates_eq now time _

/-- A tick that has read its nodes. -/
structure Reading (files : FileStore) (now : Nat) (time : Duration) (before : ControlLoop) where
  nodes : List NodeRecord
  loop : ControlLoop
  trace : List TickExchange
  runs : Runs (Tick.reconcile.run (before.begun files now time).2) trace (.ok nodes, loop)

/-- A tick that has come to its end. -/
structure Passage (files : FileStore) (now : Nat) (time : Duration) (before : ControlLoop) extends
    Reading files now time before where
  summary : TickSummary
  after : ControlLoop
  rest : List TickExchange
  passes : Runs ((Tick.afterReconcile now time nodes (before.begun files now time).1).run loop)
    rest (summary, after)

variable {files : FileStore} {now : Nat} {time : Duration} {before : ControlLoop}

theorem readNode_meets (id : NodeId) (l : ControlLoop) :
    (Tick.readNode id).Meets unwatched (fun node _ _ => ∀ n, node = some n → n.id = id) l () := by
  unfold Tick.readNode
  rw [TickM.meets_bind]
  refine meets_unwatched _ ?_
  rintro ⟨tags, l'⟩
  cases tags with
  | error e => exact fun n hn => nomatch hn
  | ok tags =>
    dsimp only
    rw [TickM.meets_bind]
    refine meets_unwatched _ ?_
    rintro ⟨running, l''⟩
    cases running with
    | error e => exact fun n hn => nomatch hn
    | ok running =>
      rintro n hn
      cases hn
      rfl

/-- The nodes that were read are among those listed, none of which was listed twice. -/
theorem readNodes_meets (ids seen : List NodeId) (l : ControlLoop) :
    (Tick.readNodes seen ids).Meets unwatched
      (fun result _ _ => ∀ nodes, result = .ok nodes →
        (nodes.map (·.id)).Sublist ids ∧ ids.Nodup ∧ ∀ id ∈ ids, id ∉ seen) l () := by
  -- an id that was seen stops the reading, so none of the later ones is among the earlier ones
  induction ids generalizing seen l with
  | nil =>
    rintro nodes hnodes
    cases hnodes
    exact ⟨List.Sublist.refl [], List.nodup_nil, fun id hid => absurd hid List.not_mem_nil⟩
  | cons id rest ih =>
    unfold Tick.readNodes
    split
    · exact fun nodes hnodes => nomatch hnodes
    · next hunseen =>
      rw [TickM.meets_bind]
      refine (readNode_meets id l).mono ?_
      intro node l' _ hnode
      rw [TickM.meets_bind]
      refine (ih (id :: seen) l').mono ?_
      intro result l'' _ hresult
      cases result with
      | error e => exact fun nodes hnodes => nomatch hnodes
      | ok read =>
        rintro nodes hnodes
        cases hnodes
        obtain ⟨hsub, hnodup, hnew⟩ := hresult read rfl
        refine ⟨?_, ?_, ?_⟩
        · cases node with
          | none => exact hsub.cons id
          | some n =>
            have hid := hnode n rfl
            rw [← hid]
            exact hsub.cons_cons n.id
        · rw [List.nodup_cons]
          refine ⟨fun hmem => hnew id hmem List.mem_cons_self, hnodup⟩
        · intro id' hid'
          rcases List.mem_cons.mp hid' with rfl | hid'
          · simpa using hunseen
          · exact fun hseen => hnew id' hid' (List.mem_cons_of_mem _ hseen)

theorem reconcile_meets (l : ControlLoop) :
    Tick.reconcile.Meets unwatched
      (fun result _ _ => ∀ nodes, result = .ok nodes → (nodes.map (·.id)).Nodup) l () := by
  unfold Tick.reconcile
  rw [TickM.meets_bind, TickM.meets_get, TickM.meets_bind]
  refine meets_unwatched _ ?_
  rintro ⟨ids, l'⟩
  cases ids with
  | error e => exact fun nodes hnodes => nomatch hnodes
  | ok ids =>
    refine (readNodes_meets ids [] l').mono ?_
    intro result l'' _ hresult nodes hnodes
    obtain ⟨hsub, hnodup, -⟩ := hresult nodes hnodes
    exact hsub.nodup hnodup

theorem runs_request (r : Request) (a : r.Reply) (l : ControlLoop) :
    Runs ((TickM.request r).run l) [⟨⟨l, .request r⟩, ⟨a, []⟩⟩] (a, l) :=
  .ask (.done _)

theorem runs_retrying {α : Type} {call : TickM (ProviderResult α)} {l l' : ControlLoop}
    {trace : List TickExchange} {a : α} (h : Runs (call.run l) trace (.ok a, l')) :
    Runs ((TickM.retrying call).run l) trace (.ok a, l') := by
  have hattempts : ∀ left, Runs ((l.retry.attempts TickM.pause call left).run l) trace
      (.ok a, l') := by
    intro left
    cases left with
    | zero => exact h
    | succ left => exact runs_bind_iff.mpr ⟨trace, _, [], (List.append_nil trace).symm, h, .done _⟩
  exact hattempts l.retry.maxRetries

/-- A call that fails for good is not repeated. -/
theorem runs_retrying_error {α : Type} {call : TickM (ProviderResult α)} {l l' : ControlLoop}
    {trace : List TickExchange} {e : ProviderError} (h : Runs (call.run l) trace (.error e, l'))
    (hfinal : e.isTransient = false) :
    Runs ((TickM.retrying call).run l) trace (.error e, l') := by
  have hattempts : ∀ left, Runs ((l.retry.attempts TickM.pause call left).run l) trace
      (.error e, l') := by
    intro left
    cases left with
    | zero => exact h
    | succ left =>
      refine runs_bind_iff.mpr ⟨trace, _, [], (List.append_nil trace).symm, h, ?_⟩
      dsimp only
      rw [if_neg (by simp [hfinal])]
      exact .done _
  exact hattempts l.retry.maxRetries

theorem readNode_runs (n : NodeRecord) (l : ControlLoop) :
    ∃ trace, Runs ((Tick.readNode n.id).run l) trace (some n, l) ∧
      ∀ x ∈ trace, Succeeded x := by
  have htags := runs_retrying (runs_request (.nodeTags n.id) (.ok n.tags) l)
  have hrunning := runs_retrying (runs_request (.isRunning n.id) (.ok n.running) l)
  refine ⟨_, runs_bind_iff.mpr ⟨_, _, _, rfl, htags,
    runs_bind_iff.mpr ⟨_, _, [], rfl, hrunning, .done _⟩⟩, ?_⟩
  intro x hx
  simp only [List.append_nil, List.cons_append, List.nil_append, List.mem_cons,
    List.not_mem_nil, or_false] at hx
  rcases hx with rfl | rfl
  · rfl
  · rfl

/-- Nodes of which none is listed twice can be read as they are. -/
theorem readNodes_runs (nodes : List NodeRecord) (seen : List NodeId) (l : ControlLoop)
    (hnodup : (nodes.map (·.id)).Nodup) (hnew : ∀ n ∈ nodes, n.id ∉ seen) :
    ∃ trace, Runs ((Tick.readNodes seen (nodes.map (·.id))).run l) trace (.ok nodes, l) ∧
      ∀ x ∈ trace, Succeeded x := by
  induction nodes generalizing seen with
  | nil => exact ⟨[], .done _, fun x hx => absurd hx List.not_mem_nil⟩
  | cons n rest ih =>
    rw [List.map_cons, List.nodup_cons] at hnodup
    have hunseen : seen.contains n.id = false := by
      simpa using hnew n List.mem_cons_self
    have hrest : ∀ m ∈ rest, m.id ∉ n.id :: seen := by
      intro m hm hmem
      rcases List.mem_cons.mp hmem with heq | hseen
      · rw [← heq] at hnodup
        exact hnodup.1 (List.mem_map_of_mem hm)
      · exact hnew m (List.mem_cons_of_mem _ hm) hseen
    obtain ⟨first, hfirst, hfirstok⟩ := readNode_runs n l
    obtain ⟨others, hothers, hothersok⟩ := ih (n.id :: seen) hnodup.2 hrest
    refine ⟨first ++ (others ++ []), ?_, ?_⟩
    · rw [List.map_cons]
      unfold Tick.readNodes
      rw [if_neg (by simpa using hunseen)]
      exact runs_bind_iff.mpr ⟨_, _, _, rfl, hfirst,
        runs_bind_iff.mpr ⟨_, _, _, rfl, hothers, .done _⟩⟩
    · intro x hx
      rw [List.append_nil, List.mem_append] at hx
      rcases hx with hx | hx
      · exact hfirstok x hx
      · exact hothersok x hx

namespace Reading

/-- The loop that plans. -/
def planner (r : Reading files now time before) : ControlLoop := r.loop.takeIn r.nodes now

/-- The plan for the nodes that were read. -/
def plan (r : Reading files now time before) : TickPlan := r.planner.planTick now r.nodes

/-- A reading holds no node twice. -/
theorem nodup (r : Reading files now time before) : (r.nodes.map (·.id)).Nodup :=
  (reconcile_meets _).result r.runs (follows_unwatched _) r.nodes rfl

/-- Every call by which the nodes were read succeeded. -/
def Succeeds (r : Reading files now time before) : Prop := ∀ x ∈ r.trace, Succeeded x

/-- Every list of distinct nodes is what some provider lets a tick read. -/
theorem exists_of_nodes (files : FileStore) (now : Nat) (time : Duration) (before : ControlLoop)
    (nodes : List NodeRecord) (hnodup : (nodes.map (·.id)).Nodup) :
    ∃ r : Reading files now time before, r.nodes = nodes ∧
      r.loop = (before.begun files now time).2 ∧ r.Succeeds := by
  have hlist := runs_retrying (runs_request
    (.listNodes (.ofList [(Tags.clusterName, (before.begun files now time).2.config.clusterName)]))
    (.ok (nodes.map (·.id))) (before.begun files now time).2)
  obtain ⟨trace, hread, hsucceeded⟩ := readNodes_runs nodes [] (before.begun files now time).2
    hnodup (fun n _ => List.not_mem_nil)
  refine ⟨⟨nodes, _, _, runs_bind_iff.mpr ⟨[], _, _, rfl, .done _,
    runs_bind_iff.mpr ⟨_, _, _, rfl, hlist, hread⟩⟩⟩, rfl, rfl, ?_⟩
  intro x hx
  rcases List.mem_cons.mp hx with rfl | hx
  · rfl
  · exact hsucceeded x hx

end Reading

/-- The first question of a tick: the updaters to stop. -/
def ControlLoop.firstExchange (l : ControlLoop) (files : FileStore) (time : Duration) :
    TickExchange :=
  ⟨⟨l.beginTick files, .abandon ((l.beginTick files).updaters.overdue time)⟩, ()⟩

/-- A tick goes on with the nodes that were read, or fails with the error of the reading. -/
def Tick.proceed (now : Nat) (time : Duration) (s : TickSummary) :
    Except LoopError (List NodeRecord) → TickM (Except LoopError TickSummary)
  | .error e => return .error e
  | .ok nodes => return .ok (← Tick.afterReconcile now time nodes s)

/-- Every run of a tick that does not fail is a passage. -/
theorem exists_passage {trace : List TickExchange} {summary : TickSummary} {after : ControlLoop}
    (h : Runs ((tick files now time).run before) trace (.ok summary, after)) :
    ∃ p : Passage files now time before, p.summary = summary ∧ p.after = after ∧
      trace = before.firstExchange files time :: (p.trace ++ p.rest) := by
  have hrun : Runs (.ask ⟨before.beginTick files,
      .abandon ((before.beginTick files).updaters.overdue time)⟩ (fun _ =>
        (Tick.reconcile.run (before.begun files now time).2).bind (fun r =>
          (Tick.proceed now time (before.begun files now time).1 r.1).run r.2)))
        trace (.ok summary, after) := h
  cases hrun with
  | ask hrun =>
    obtain ⟨read, ⟨result, loop⟩, rest, rfl, hread, hrest⟩ := runs_bind_iff.mp hrun
    cases result with
    | error e => cases hrest
    | ok nodes =>
      obtain ⟨passed, ⟨summary', after'⟩, done, rfl, hpassed, hdone⟩ := runs_bind_iff.mp hrest
      cases hdone
      refine ⟨⟨⟨nodes, loop, read, hread⟩, summary, after, passed, hpassed⟩, rfl, rfl, ?_⟩
      rw [List.append_nil]
      rfl

/-- A loop after a tick that reads these nodes and meets no failure. -/
def ControlLoop.afterTick (l : ControlLoop) (files : FileStore) (now : Nat) (time : Duration)
    (nodes : List NodeRecord) : ControlLoop :=
  (((Tick.afterReconcile now time nodes (l.begun files now time).1).run
    (l.begun files now time).2).replay (·.question.succeed)).2.2

namespace Passage

/-- Every call of the tick succeeded. -/
def Succeeds (p : Passage files now time before) : Prop := ∀ x ∈ p.trace ++ p.rest, Succeeded x

theorem Succeeds.reading {p : Passage files now time before} (h : p.Succeeds) :
    p.toReading.Succeeds :=
  fun x hx => h x (List.mem_append_left _ hx)

/-- Every list of distinct nodes is what some tick without a failure reads. -/
theorem exists_of_nodes (files : FileStore) (now : Nat) (time : Duration) (before : ControlLoop)
    (nodes : List NodeRecord) (hnodup : (nodes.map (·.id)).Nodup) :
    ∃ p : Passage files now time before, p.nodes = nodes ∧
      p.planner = (before.begun files now time).2.takeIn nodes now ∧
        p.plan = ((before.begun files now time).2.takeIn nodes now).planTick now nodes ∧
          p.after = before.afterTick files now time nodes ∧ p.Succeeds := by
  obtain ⟨r, rfl, hloop, hread⟩ := Reading.exists_of_nodes files now time before nodes hnodup
  obtain ⟨hrun, hanswers⟩ := runs_replay
    (fun a : TickAsk => a.question.succeed)
    ((Tick.afterReconcile now time r.nodes (before.begun files now time).1).run r.loop)
  refine ⟨⟨r, _, _, _, hrun⟩, rfl, ?_, ?_, ?_, ?_⟩
  · change r.loop.takeIn r.nodes now = _
    rw [hloop]
  · change (r.loop.takeIn r.nodes now).planTick now r.nodes = _
    rw [hloop]
  · unfold ControlLoop.afterTick
    rw [← hloop]
  · intro x hx
    rcases List.mem_append.mp hx with hx | hx
    · exact hread x hx
    · unfold Succeeded
      rw [hanswers x hx]
      exact x.op.question.succeeded_succeed

/-- Whatever was read, and whatever the answers to what is asked then, some tick goes on from there
to its end. -/
theorem exists_of_reading (r : Reading files now time before) (answer : (a : TickAsk) → a.Reply) :
    ∃ p : Passage files now time before, p.toReading = r ∧
      p.rest = (((Tick.afterReconcile now time r.nodes (before.begun files now time).1).run
        r.loop).replay answer).1 :=
  ⟨⟨r, _, _, _, (runs_replay answer _).1⟩, rfl, rfl⟩

/-- Every passage is a run of a tick. -/
theorem runs_tick (p : Passage files now time before) :
    Runs ((tick files now time).run before)
      (before.firstExchange files time :: (p.trace ++ p.rest)) (.ok p.summary, p.after) := by
  have hpassed : Runs ((Tick.proceed now time (before.begun files now time).1 (.ok p.nodes)).run
      p.loop) p.rest (.ok p.summary, p.after) :=
    runs_bind_iff.mpr ⟨p.rest, _, [], (List.append_nil _).symm, p.passes, .done _⟩
  have hread : Runs ((Tick.reconcile.run (before.begun files now time).2).bind (fun r =>
      (Tick.proceed now time (before.begun files now time).1 r.1).run r.2)) (p.trace ++ p.rest)
      (.ok p.summary, p.after) :=
    runs_bind_iff.mpr ⟨_, _, _, rfl, p.runs, hpassed⟩
  have hwhole : Runs (.ask ⟨before.beginTick files,
      .abandon ((before.beginTick files).updaters.overdue time)⟩ (fun _ =>
        (Tick.reconcile.run (before.begun files now time).2).bind (fun r =>
          (Tick.proceed now time (before.begun files now time).1 r.1).run r.2)))
      (before.firstExchange files time :: (p.trace ++ p.rest)) (.ok p.summary, p.after) :=
    .ask hread
  exact hwhole

end Passage

end ClusterScaler
