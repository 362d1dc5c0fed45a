import ClusterScaler.Proofs.Tick.Frame
import ClusterScaler.Proofs.Tick.Passage

/-!
# The middle of a tick

A tick comes apart where it turns to its launches: up to there it reads, plans and terminates, and
from there it launches and sends updaters out.
-/

set_option autoImplicit false

namespace ClusterScaler

open TickM

namespace Tick

/-- What a tick has in hand when it comes to its launches. -/
structure Midway where
  planner : ControlLoop
  nodes : List NodeRecord
  plan : TickPlan
  /-- The nodes that were terminated. -/
  removed : List NodeId
  summary : TickSummary

/-- A tick up to its launches. -/
def toLaunches (files : FileStore) (now : Nat) (time : Duration) :
    TickM (Except LoopError Midway) := do
  modify (·.beginTick files)
  ask (.abandon ((← get).updaters.overdue time))
  let (s, l) := (← get).mergeUpdates now time (TickSummary.start (← get).ticks now)
  set l
  match ← reconcile with
  | .error e => return .error e
  | .ok nodes =>
    modify (·.takeIn nodes now)
    let planner ← get
    let plan := planner.planTick now nodes
    let (removed, s) ← terminate plan.doomed s
    return .ok ⟨planner, nodes, plan, removed, s⟩

/-- A tick from its launches on. -/
def fromLaunches (now : Nat) (time : Duration) (m : Midway) : TickM TickSummary := do
  let departed := m.nodes.filter (m.removed.contains ·.id)
  let survivors := m.nodes.filter (!m.removed.contains ·.id)
  let s ← launchUnlessTripped (m.planner.planLaunches m.plan.remaining m.plan.targets) m.summary
  let updatable := survivors.filter (!m.plan.doomed.contains ·.id)
  let s ← dispatchAll time updatable none updatable s
  let s := { s with nodes := survivors.length, targets := m.plan.targets }
  modify (·.publish survivors departed m.planner.loads now s)
  return s

/-- A tick that has come to its launches goes on with them. -/
def pass (now : Nat) (time : Duration) :
    Except LoopError Midway → TickM (Except LoopError TickSummary)
  | .error e => return .error e
  | .ok m => return .ok (← fromLaunches now time m)

/-- A tick goes up to its launches, and then on from there. -/
theorem toLaunches_pass (files : FileStore) (now : Nat) (time : Duration) :
    tick files now time = toLaunches files now time >>= pass now time := by
  unfold tick toLaunches
  simp only [bind_assoc]
  -- both do the same until the nodes are read
  refine bind_congr fun _ => bind_congr fun _ => bind_congr fun _ => bind_congr fun _ =>
    bind_congr fun _ => bind_congr fun _ => bind_congr fun result => ?_
  cases result with
  | error e => rfl
  | ok nodes =>
    dsimp only
    rw [afterReconcile_eq]
    unfold carryOut pass fromLaunches
    simp only [bind_assoc, pure_bind]

open Program

/-- What a tick has had so far ends before its launches, or goes on from there. -/
theorem begins_cases {files : FileStore} {now : Nat} {time : Duration} {before : ControlLoop}
    {trace : List TickExchange}
    {left : Program TickAsk TickAsk.Reply (Except LoopError TickSummary × ControlLoop)}
    (h : Begins ((tick files now time).run before) trace left) :
    (∃ left', Begins ((toLaunches files now time).run before) trace left') ∨
      ∃ first rest m l left', trace = first ++ rest ∧
        Runs ((toLaunches files now time).run before) first (.ok m, l) ∧
          Begins ((fromLaunches now time m).run l) rest left' := by
  rw [toLaunches_pass] at h
  have hwhole : Begins (((toLaunches files now time).run before).bind fun r =>
      (pass now time r.1).run r.2) trace left := h
  rcases hwhole.bind_cases with
    ⟨op, next, hbegins, -⟩ | ⟨first, ⟨result, l⟩, rest, rfl, hfirst, hrest⟩
  · exact .inl ⟨_, hbegins⟩
  · cases result with
    | error e =>
      -- the reading failed, and nothing comes after it
      cases hrest
      rw [List.append_nil]
      exact .inl ⟨_, hfirst.begins⟩
    | ok m =>
      right
      have hgoing : Begins (((fromLaunches now time m).run l).bind fun r =>
          .done (Except.ok (ε := LoopError) r.1, r.2)) rest left := hrest
      rcases hgoing.bind_cases with
        ⟨op, next, hbegins, -⟩ | ⟨launching, r, others, rfl, hlaunching, hothers⟩
      · exact ⟨first, rest, m, l, _, rfl, hfirst, hbegins⟩
      · cases hothers
        rw [List.append_nil]
        exact ⟨first, launching, m, l, _, rfl, hfirst, hlaunching.begins⟩

section Frame

variable {σ : Type} {P : Protocol TickAsk TickAsk.Reply σ} {inv : ControlLoop → σ → Prop}
  {files : FileStore} {now : Nat} {time : Duration} {l : ControlLoop} {s : σ}

/-- A tick up to its launches keeps an invariant if its questions and its own steps do, from the
first of them on. -/
theorem frame_toLaunches (hlooks : LooksKept P inv)
    (hterminate : ∀ doomed, (Question.request (.terminateNodes doomed)).Kept P inv)
    (htake : ∀ l s nodes, inv l s → inv (l.takeIn nodes now) s)
    (hmark : ∀ l s doomed, inv l s → inv (l.markAll .terminating doomed) s)
    (hremove : ∀ l s doomed, inv l s → inv (l.removeAll doomed) s)
    (hfail : ∀ l s sum, inv l s → inv (ControlLoop.countFailure (sum, l)).2 s)
    (hpermits : P.permits s (l.firstExchange files time).op)
    (hbegun : ∀ r s', P.follows s (l.firstExchange files time).op r s' →
      inv (l.begun files now time).2 s') :
    (toLaunches files now time).Meets P (fun _ l' s' => inv l' s') l s := by
  unfold toLaunches
  rw [TickM.meets_bind, meets_modify, TickM.meets_bind, meets_get, TickM.meets_bind]
  refine (meets_ask (q := .abandon _)).mpr ⟨hpermits, ?_⟩
  intro r s' hr
  rw [TickM.meets_bind, meets_get, TickM.meets_bind, meets_get, TickM.meets_bind, meets_set,
    TickM.meets_bind]
  refine (frame_reconcile hlooks (hbegun r s' hr)).mono ?_
  intro result l' s'' h'
  cases result with
  | error e => exact h'
  | ok nodes =>
    dsimp only
    rw [TickM.meets_bind, meets_modify, TickM.meets_bind, meets_get, TickM.meets_bind]
    refine (frame_terminate hlooks (hterminate _) (fun l s => hmark l s _)
      (fun l s => hremove l s _) hfail (htake l' s'' nodes h')).mono ?_
    rintro r l'' _ ⟨-, h''⟩
    exact h''

end Frame

/-- What a tick has planned when it comes to its launches, and what of it the loop still has. -/
structure Midway.Planned (m : Midway) (now : Nat) (begun l : ControlLoop) : Prop where
  begun : m.planner.config = begun.config
  nodup : (m.nodes.map (·.id)).Nodup
  plan : m.plan = m.planner.planTick now m.nodes
  removed : m.removed = [] ∨ m.removed = m.plan.doomed
  config : l.config = m.planner.config
  hashes : l.hashes = m.planner.hashes

theorem toLaunches_planned (files : FileStore) (now : Nat) (time : Duration) (l : ControlLoop) :
    (toLaunches files now time).Meets unwatched
      (fun result l' _ => ∀ m, result = .ok m → m.Planned now (l.begun files now time).2 l')
      l () := by
  unfold toLaunches
  rw [TickM.meets_bind, meets_modify, TickM.meets_bind, meets_get, TickM.meets_bind]
  refine (meets_ask (q := .abandon _)).mpr ⟨trivial, ?_⟩
  intro r _ _
  rw [TickM.meets_bind, meets_get, TickM.meets_bind, meets_get, TickM.meets_bind, meets_set,
    TickM.meets_bind]
  let configured : ControlLoop → Unit → Prop := fun l' _ =>
    l'.config = (l.begun files now time).2.config
  have hlooks : LooksKept unwatched configured := fun r _ l' s h => ⟨trivial, fun _ _ _ => h⟩
  have hreads : configured (l.begun files now time).2 () := rfl
  refine ((reconcile_meets _).and_unwatched (frame_reconcile hlooks hreads)).mono ?_
  rintro ⟨result, l'⟩ _ ⟨hnodup, hbegun⟩
  cases result with
  | error e => exact fun m hm => nomatch hm
  | ok nodes =>
    dsimp only
    rw [TickM.meets_bind, meets_modify, TickM.meets_bind, meets_get, TickM.meets_bind]
    let same : ControlLoop → Unit → Prop := fun l'' _ =>
      l''.config = (l'.takeIn nodes now).config ∧ l''.hashes = (l'.takeIn nodes now).hashes
    have hkept : ∀ q : Question, q.Kept unwatched same := by
      intro q l s h
      refine ⟨trivial, fun r s' _ => ?_⟩
      cases q <;> exact h
    have hlooks : LooksKept unwatched same := fun r _ => hkept _
    have hstart : same (l'.takeIn nodes now) () := ⟨rfl, rfl⟩
    refine (frame_terminate hlooks (hkept _) (fun _ _ h => h)
      (fun _ _ h => h) (fun _ _ _ h => h) hstart).mono ?_
    rintro ⟨removed, sum⟩ l'' _ ⟨hremoved, hconfig, hhashes⟩ m hm
    cases hm
    exact ⟨hbegun, hnodup nodes rfl, rfl, hremoved, hconfig, hhashes⟩

end Tick

open Program

/-- A tick plans for the nodes that were read and asks for its terminations, or fails with the error of
the reading. -/
def Tick.prepare (now : Nat) (s : TickSummary) :
    Except LoopError (List NodeRecord) → TickM (Except LoopError Tick.Midway)
  | .error e => return .error e
  | .ok nodes => do
    modify (·.takeIn nodes now)
    let planner ← get
    let plan := planner.planTick now nodes
    let (removed, s) ← Tick.terminate plan.doomed s
    return .ok ⟨planner, nodes, plan, removed, s⟩

/-- Every passage comes to its launches and goes on from there. -/
theorem Passage.exists_midway {files : FileStore} {now : Nat} {time : Duration}
    {before : ControlLoop} (p : Passage files now time before) :
    ∃ (m : Tick.Midway) (l : ControlLoop) (first rest : List TickExchange),
      before.firstExchange files time :: (p.trace ++ p.rest) = first ++ rest ∧
        Runs ((Tick.toLaunches files now time).run before) first (.ok m, l) ∧
          Runs ((Tick.fromLaunches now time m).run l) rest (p.summary, p.after) ∧
            m.planner = p.planner ∧ m.nodes = p.nodes ∧ m.plan = p.plan := by
  have hpasses : Runs (((Tick.terminate p.plan.doomed (before.begun files now time).1).run
      p.planner).bind (fun r => (Tick.fromLaunches now time
        ⟨p.planner, p.nodes, p.plan, r.1.1, r.1.2⟩).run r.2)) p.rest (p.summary, p.after) := p.passes
  obtain ⟨terminating, ⟨⟨removed, sum⟩, l⟩, rest, hsplit, hterminate, hrest⟩ :=
    runs_bind_iff.mp hpasses
  refine ⟨⟨p.planner, p.nodes, p.plan, removed, sum⟩, l,
    before.firstExchange files time :: (p.trace ++ (terminating ++ [])), rest, ?_, ?_, hrest, rfl,
    rfl, rfl⟩
  · rw [hsplit, List.append_nil, List.cons_append, List.append_assoc]
  · have hterminated : Runs (((Tick.terminate p.plan.doomed (before.begun files now time).1).run
        p.planner).bind (fun r => .done (Except.ok (ε := LoopError)
          (⟨p.planner, p.nodes, p.plan, r.1.1, r.1.2⟩ : Tick.Midway), r.2)))
        (terminating ++ []) (.ok ⟨p.planner, p.nodes, p.plan, removed, sum⟩, l) :=
      runs_bind_iff.mpr ⟨_, _, _, rfl, hterminate, .done _⟩
    have hprepared : Runs ((Tick.prepare now (before.begun files now time).1 (.ok p.nodes)).run p.loop)
        (terminating ++ []) (.ok ⟨p.planner, p.nodes, p.plan, removed, sum⟩, l) := hterminated
    have hread : Runs ((Tick.reconcile.run (before.begun files now time).2).bind (fun r =>
        (Tick.prepare now (before.begun files now time).1 r.1).run r.2))
        (p.trace ++ (terminating ++ []))
        (.ok ⟨p.planner, p.nodes, p.plan, removed, sum⟩, l) :=
      runs_bind_iff.mpr ⟨_, _, _, rfl, p.runs, hprepared⟩
    have hwhole : Runs (.ask ⟨before.beginTick files,
        .abandon ((before.beginTick files).updaters.overdue time)⟩ (fun _ =>
          (Tick.reconcile.run (before.begun files now time).2).bind (fun r =>
            (Tick.prepare now (before.begun files now time).1 r.1).run r.2)))
        (before.firstExchange files time :: (p.trace ++ (terminating ++ [])))
        (.ok ⟨p.planner, p.nodes, p.plan, removed, sum⟩, l) := .ask hread
    exact hwhole

end ClusterScaler
