import ClusterScaler.Proofs.Exclusion.Instants
import ClusterScaler.Proofs.Updating.Sequence

/-!
# Updates among the jobs

An updater in the background applies its update until it is done or its deadline comes, and then
concludes it. However often it waits in between, it stands in a course of its update, and a result
that it ends with is one that such a course ends with. At every instant of a run this is true of all
updaters under way, whatever else goes on.
-/

set_option autoImplicit false

namespace ClusterScaler

open Program

variable {α : Type}

/-- How a moment comes about: the program has made attempts and is done with what it ended with, or
it waits as the moment says. -/
def Moment.Follows (p : Routine α) : Moment α → Prop
  | .ended a => ∃ attempts, Tries p attempts (some a)
  | .panicked => ∃ attempts, Tries p attempts none
  | .waiting w => ∃ trace, Begins p trace (.ask w.request w.next)

namespace Moment.Follows

variable {m : Moment α}

theorem ask {r : Request} {next : r.Reply → Routine α} {reply : r.Reply}
    (h : m.Follows (next reply)) : m.Follows (.ask r next) := by
  cases m with
  | ended a =>
    obtain ⟨attempts, htries⟩ := h
    exact ⟨_, .ask htries⟩
  | panicked =>
    obtain ⟨attempts, htries⟩ := h
    exact ⟨_, .ask htries⟩
  | waiting w =>
    obtain ⟨trace, hbegins⟩ := h
    exact ⟨_, .ask hbegins⟩

/-- What comes about from some point of a program on comes about from the program. -/
theorem of_begins {p left : Routine α} {trace : List (Exchange Request Request.Reply)}
    (hbegins : Begins p trace left) (h : m.Follows left) : m.Follows p := by
  induction hbegins with
  | here p => exact h
  | ask _ ih => exact (ih h).ask

/-- A program that goes on as far as it can comes to a moment of its own. -/
theorem proceed (scripted : Bool) (p : Routine α) (s : Scene) :
    (s.proceed scripted p).1.Follows p := by
  induction p generalizing s with
  | done a => exact ⟨[], .done a⟩
  | ask r next ih =>
    unfold Scene.proceed
    split
    · next reply s' _ => exact (ih reply s').ask
    · exact ⟨[], .here _⟩
    · exact ⟨_, .waits r next⟩

theorem resume {p : Routine α} {w : Waiting α} (scripted : Bool) (s : Scene)
    (h : (Moment.waiting w).Follows p) : (s.resume scripted w).1.Follows p := by
  obtain ⟨trace, hbegins⟩ := h
  exact of_begins hbegins (proceed scripted _ _).ask

end Moment.Follows

namespace Update

/-- An update was applied with a result, or cut off at its timeout. -/
def Applies (u : Update) (result : UpdateResult) : Prop :=
  ∃ attempts, Tries u.apply attempts (some result) ∨
    Tries u.apply attempts none ∧ result = .error (.timeout u.timeout)

/-- A job that is under way for an update stands in a course of it. -/
def UnderWay (u : Update) : Work → Prop
  | .startUpdate u' => u' = u
  | .applying u' _ w => u' = u ∧ (Moment.waiting w).Follows u.apply
  | .concluding u' w =>
    u' = u ∧ ∃ result, u.Applies result ∧ (Moment.waiting w).Follows (u.conclude result)
  | .startLaunch _ | .launching .. => False

/-- A job for an update goes on, or has ended as one of its courses does. -/
def GoesOn (u : Update) : WorkStep → Prop
  | .still work => u.UnderWay work
  | .updater node ended => node = u.request.node ∧ ∃ attempts result?, u.Course attempts result? ∧
      ∀ result, ended = .finished result → result? = some result
  | .launch _ => False

variable {u : Update} {result : UpdateResult}

theorem Applies.course {attempts : List RequestAttempt} {result? : Option UpdateResult}
    (h : u.Applies result) (htries : Tries (u.conclude result) attempts result?) :
    ∃ all, u.Course all result? := by
  obtain ⟨first, happlied | ⟨hcut, rfl⟩⟩ := h
  · exact ⟨_, .ended happlied htries⟩
  · exact ⟨_, .cut hcut htries⟩

theorem Applies.goesOn {m : Moment UpdateResult} (h : u.Applies result)
    (hm : m.Follows (u.conclude result)) : u.GoesOn (Work.afterConclude u m) := by
  cases m with
  | ended final =>
    obtain ⟨attempts, htries⟩ := hm
    obtain ⟨all, hcourse⟩ := h.course htries
    refine ⟨rfl, all, _, hcourse, ?_⟩
    rintro _ ⟨⟩
    rfl
  | panicked =>
    obtain ⟨attempts, htries⟩ := hm
    obtain ⟨all, hcourse⟩ := h.course htries
    exact ⟨rfl, all, _, hcourse, fun _ heq => nomatch heq⟩
  | waiting w => exact ⟨rfl, result, h, hm⟩

theorem Applies.conclude (h : u.Applies result) (s : Scene) :
    u.GoesOn (Work.conclude u result s).1 :=
  h.goesOn (Moment.Follows.proceed true _ s)

/-- An update that waits may be cut off. -/
theorem applies_timeout {w : Waiting UpdateResult} (h : (Moment.waiting w).Follows u.apply) :
    u.Applies (.error (.timeout u.timeout)) := by
  obtain ⟨trace, hbegins⟩ := h
  exact ⟨_, .inr ⟨hbegins.tries (.waits _ _), rfl⟩⟩

theorem goesOn_afterApply {m : Moment UpdateResult} (deadline : Nat) (s : Scene)
    (hm : m.Follows u.apply) : u.GoesOn (Work.afterApply u deadline m s).1 := by
  cases m with
  | ended result =>
    obtain ⟨attempts, htries⟩ := hm
    have happlied : u.Applies result := ⟨attempts, .inl htries⟩
    exact happlied.conclude s
  | panicked =>
    obtain ⟨attempts, htries⟩ := hm
    exact ⟨rfl, attempts, _, .applying htries, fun _ heq => nomatch heq⟩
  | waiting w =>
    unfold Work.afterApply
    dsimp only
    split
    · exact (applies_timeout hm).conclude _
    · exact ⟨rfl, hm⟩

/-- Every step of a job for an update keeps to the courses of the update. -/
theorem UnderWay.step {work : Work} (h : u.UnderWay work) (s : Scene) :
    u.GoesOn (work.step s).1 := by
  cases work with
  | startUpdate u' =>
    obtain rfl : u' = u := h
    exact goesOn_afterApply _ _ (Moment.Follows.proceed true _ s)
  | applying u' deadline w =>
    obtain ⟨rfl, hw⟩ := h
    unfold Work.step
    dsimp only
    split
    · exact goesOn_afterApply deadline _ (hw.resume true s)
    · exact (applies_timeout hw).conclude _
  | concluding u' w =>
    obtain ⟨rfl, result, happlied, hw⟩ := h
    exact happlied.goesOn (hw.resume true s)
  | startLaunch o => exact h.elim
  | launching o w => exact h.elim

end Update

namespace Simulation

/-- Every updater stands in a course of an update, or has ended as such a course does. -/
structure InCourse (s : Simulation) : Prop where
  jobs : ∀ j ∈ s.jobs, ∀ node, j.work.updaterOf? = some node → ∃ u : Update, u.UnderWay j.work
  ends : ∀ e ∈ s.updaterEnds, ∃ u : Update, u.GoesOn (.updater e.node e.ended)

namespace InCourse

variable {s : Simulation}

theorem add {work : Work} (h : s.InCourse)
    (hwork : ∀ node, work.updaterOf? = some node → ∃ u : Update, u.UnderWay work) :
    (s.add work).InCourse where
  jobs := List.forall_mem_append.mpr ⟨h.jobs, List.forall_mem_singleton.mpr hwork⟩
  ends := h.ends

theorem settleStep {r : WorkStep} (h : s.InCourse)
    (hr : ∀ node, r.updaterOf? = some node → ∃ u : Update, u.GoesOn r) :
    (s.settleStep r).InCourse := by
  cases r with
  | still work => exact h.add hr
  | updater node ended =>
    exact ⟨h.jobs, List.forall_mem_append.mpr
      ⟨h.ends, List.forall_mem_singleton.mpr (hr node rfl)⟩⟩
  | launch ended => exact ⟨h.jobs, h.ends⟩

/-- A step of a job keeps its updater in course, if it is one, and concerns no other. -/
theorem runJob {job : Job} {others : List Job} (h : s.InCourse)
    (hperm : s.jobs.Perm (job :: others)) : (s.runJob job others).InCourse := by
  have hjobs : ∀ j ∈ job :: others, ∀ node, j.work.updaterOf? = some node →
      ∃ u : Update, u.UnderWay j.work := fun j hj => h.jobs j (hperm.mem_iff.mpr hj)
  have hstep : ∀ (scene : Scene) node, (job.work.step scene).1.updaterOf? = some node →
      ∃ u : Update, u.GoesOn (job.work.step scene).1 := by
    intro scene node hnode
    rw [Work.updaterOf?_step] at hnode
    obtain ⟨u, hunder⟩ := hjobs job List.mem_cons_self node hnode
    exact ⟨u, hunder.step scene⟩
  exact settleStep ⟨fun j hj => hjobs j (List.mem_cons_of_mem _ hj), h.ends⟩ (hstep _)

/-- To drop jobs and ends takes no updater off its course. -/
theorem dropped (h : s.InCourse) {s' : Simulation} (hjobs : s'.jobs ⊆ s.jobs)
    (hends : s'.updaterEnds ⊆ s.updaterEnds) : s'.InCourse :=
  ⟨fun j hj => h.jobs j (hjobs hj), fun e he => h.ends e (hends he)⟩

theorem dropUpdaters (h : s.InCourse) (nodes : List NodeId) : (s.dropUpdaters nodes).InCourse :=
  h.dropped (fun _ => List.mem_of_mem_filter) (fun _ => List.mem_of_mem_filter)

theorem dropLaunches (h : s.InCourse) : s.dropLaunches.InCourse :=
  h.dropped (fun _ => List.mem_of_mem_filter) (fun _ he => he)

theorem takeEnds (h : s.InCourse) : s.takeEnds.2.InCourse :=
  h.dropped (fun _ hj => hj) (List.nil_subset _)

theorem of_flights (h : ∀ n, s.flights n = 0) : s.InCourse := by
  have hcounts : ∀ n, s.updaterJobs n = 0 ∧ s.updaterEnds.countP (fun e => e.node = n) = 0 :=
    fun n => Nat.add_eq_zero_iff.mp (h n)
  constructor
  · intro j hj node hnode
    have hnone := List.countP_eq_zero.mp (hcounts node).1 j hj
    exact absurd hnode (by simpa using hnone)
  · intro e he
    have hnone := List.countP_eq_zero.mp (hcounts e.node).2 e he
    exact absurd (decide_eq_true rfl) hnone

end InCourse

end Simulation

namespace Instant

variable {i j : Instant}

/-- Whatever happens next, all updaters stay in course. -/
theorem inCourse_step (h : i.simulation.InCourse) (hstep : Step i j) : j.simulation.InCourse := by
  cases hstep with
  | scene a s scene => exact ⟨h.jobs, h.ends⟩
  | job a hperm => exact h.runJob hperm
  | tickBegins l s files now time => exact h
  | answer answered l r next s reply => exact h.takeEnds
  | dispatch answered l u next s => exact h.add fun _ _ => ⟨u, rfl⟩
  | abandon answered l nodes next s => exact h.dropUpdaters nodes
  | launch answered l order next s => exact h.add fun node hnode => nomatch hnode
  | launchEnds answered l next s ended launchEnds =>
    exact Simulation.InCourse.takeEnds ⟨h.jobs, h.ends⟩
  | tickEnds answered result l s => exact h
  | cut answered a next s => exact h.dropLaunches
  | noteEnds l s => exact h.takeEnds
  | feeds l s feeds => exact h
  | obey l s files command => exact h
  | drain l time hnone => exact h
  | stop l s => exact h.dropUpdaters _

/-- At every instant of a run all updaters under way are in course. -/
theorem Reachable.inCourse (h : Reachable i) : i.simulation.InCourse := by
  obtain ⟨start, ⟨l, -, hnone⟩, hsteps⟩ := h
  induction hsteps with
  | refl => exact .of_flights hnone
  | tail _ hstep ih => exact inCourse_step ih hstep

end Instant

end ClusterScaler
