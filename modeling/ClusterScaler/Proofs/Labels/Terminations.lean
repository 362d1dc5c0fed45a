import ClusterScaler.Proofs.Exclusion.Instants
import ClusterScaler.Proofs.Labels.Requests
import ClusterScaler.Proofs.Updating.Courses

/-!
# What a tick terminates, and why

Once a tick has read its nodes, it condemns those that have to go and those that are in excess. It
asks for the termination of all of them, and neither it nor anything that it sends out asks for any
other.
-/

set_option autoImplicit false

namespace ClusterScaler

open Program

/-- A question asks for no terminations but this one. -/
def Question.TerminatesOnly (doomed : List NodeId) (q : Question) : Prop :=
  ∀ r, q = .request r → r.terminates = true → r = .terminateNodes doomed

/-- Only requests terminate nodes. -/
theorem Question.exists_request_of_terminated {q : Question} (h : q.terminated ≠ []) :
    ∃ r, q = .request r ∧ r.terminates = true := by
  unfold terminated at h
  split at h
  · exact ⟨_, rfl, rfl⟩
  · exact ⟨_, rfl, rfl⟩
  · exact absurd rfl h

theorem planKept_terminatesOnly (nodes : List NodeRecord) (p : TickPlan) :
    PlanKept (asking fun a => a.question.TerminatesOnly p.doomed) (fun _ _ => True) nodes p where
  looks := by
    refine fun r hr _ _ _ => ⟨?_, fun _ _ _ => trivial⟩
    rintro _ ⟨⟩ hterminates
    rw [(Request.of_looks hr).2.2.1] at hterminates
    cases hterminates
  terminate := by
    refine fun _ _ _ => ⟨?_, fun _ _ _ => trivial⟩
    rintro _ ⟨⟩ -
    rfl
  mark _ _ _ := trivial
  remove _ _ _ := trivial
  fail _ _ _ _ := trivial
  launch _ _ _ _ _ _ _ _ _ _ := ⟨(fun _ hr => nomatch hr), fun _ _ _ => trivial⟩
  await _ _ _ := ⟨(fun _ hr => nomatch hr), fun _ _ _ => trivial⟩
  merge _ _ _ _ _ := trivial
  send _ _ _ _ _ _ _ _ _ _ _ _ _ _ _ _ := ⟨(fun _ hr => nomatch hr), fun _ _ _ => trivial⟩
  publish _ _ _ _ _ _ _ _ := trivial

namespace Reading

variable {files : FileStore} {now : Nat} {time : Duration} {before : ControlLoop}

/-- The nodes that a tick is going to terminate, each with the reason. -/
def condemned (r : Reading files now time before) : List (NodeId × TerminationReason) :=
  r.nodes.filterMap (fun n => (r.planner.forcedReason now n).map ((n.id, ·))) ++
    r.plan.excess.map ((·, .excess))

theorem map_condemned (r : Reading files now time before) :
    r.condemned.map (·.1) = r.plan.doomed := by
  have hforced : ∀ nodes : List NodeRecord,
      (nodes.filterMap fun n => (r.planner.forcedReason now n).map ((n.id, ·))).map (·.1) =
        (nodes.filter fun n => (r.planner.forcedReason now n).isSome).map (·.id) := by
    intro nodes
    induction nodes with
    | nil => rfl
    | cons n rest ih =>
      cases hreason : r.planner.forcedReason now n with
      | none => simp [hreason, ih]
      | some reason => simp [hreason, ih]
  unfold condemned TickPlan.doomed
  rw [List.map_append, hforced, List.map_map]
  exact congrArg (_ ++ ·) (List.map_id _)

/-- A tick plans with the hashes that it began with. -/
theorem hashes_planner (r : Reading files now time before) :
    r.planner.hashes = (before.beginTick files).hashes := by
  have hbegun : (before.begun files now time).2.hashes = (before.beginTick files).hashes := by
    obtain ⟨_, _, _, _, hmerged⟩ := before.begun_eq files now time
    rw [hmerged]
  have hlooks : LooksKept unwatched
      fun l (_ : Unit) => l.hashes = (before.beginTick files).hashes :=
    fun _ _ _ _ h => ⟨trivial, fun _ _ _ => h⟩
  exact (Tick.frame_reconcile hlooks hbegun).result r.runs (follows_unwatched r.trace)

/-- After its reading a tick asks only for the termination of what it condemned. -/
theorem meets_terminatesOnly (r : Reading files now time before) (s : TickSummary) :
    (Tick.afterReconcile now time r.nodes s).Meets
      (asking fun a => a.question.TerminatesOnly r.plan.doomed) (fun _ _ _ => True) r.loop () := by
  rw [Tick.afterReconcile_eq, TickM.meets_bind, TickM.meets_modify, TickM.meets_bind,
    TickM.meets_get]
  exact Tick.frame_carryOut (planKept_terminatesOnly r.nodes r.plan) r.planner now time s trivial

end Reading

/-- A tick terminates nodes only by asking, once it has read them, for all that it condemned. -/
theorem Tick.exists_condemned {files : FileStore} {now : Nat} {time : Duration}
    {before : ControlLoop} {asked : List TickExchange} {a : TickAsk} {next : a.Reply → TickRest}
    {q : Request} (h : Begins ((tick files now time).run before) asked (.ask a next))
    (hleads : a.question.LeadsTo q) (hq : q.terminates = true) :
    ∃ r : Reading files now time before, r.Precedes asked ∧
      q = .terminateNodes (r.condemned.map (·.1)) := by
  have hquestion := hleads.terminates hq
  have hlooks : ∀ r, a.question = .request r → r.looks = false := by
    rw [hquestion]
    rintro _ ⟨⟩
    cases hlooks : q.looks with
    | false => rfl
    | true =>
      rw [(Request.of_looks hlooks).2.2.1] at hq
      cases hq
  have hanswered := h.answered a.question.succeed
  obtain ⟨r, rest, rfl⟩ := exists_precedes hanswered hlooks (by
    rw [hquestion]
    exact fun _ heq => nomatch heq)
  refine ⟨r, ⟨rest, rfl⟩, ?_⟩
  rw [List.cons_append, List.append_assoc] at hanswered
  obtain ⟨left, hpassing, -⟩ := r.begins_passing hanswered
  rw [r.map_condemned]
  exact (r.meets_terminatesOnly _).permits hpassing (follows_asking rest) q hquestion hq

end ClusterScaler
