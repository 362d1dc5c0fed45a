import ClusterScaler.Proofs.Service.Launches

/-!
# A service at work

A service can be run: it answers every question of a tick from its nodes, lets a launch order go on
to its end once it is waited for, and lets an updater go on to its end when that is asked of it.
Every such run is one that the protocol of the service allows.
-/

set_option autoImplicit false

namespace ClusterScaler

namespace Program

variable {Op : Type} {Reply : Op → Type} {σ α : Type}

/-- Run a program with someone who answers from a state, or gives up. -/
def runIf (answer : (op : Op) → σ → Option (Reply op × σ)) :
    Program Op Reply α → σ → Option (α × σ)
  | done a, s => some (a, s)
  | ask op next, s => do
    let (r, s) ← answer op s
    (next r).runIf answer s

/-- Running a program with answers that a protocol allows is a run under the protocol. -/
theorem exists_runs_of_runIf {P : Protocol Op Reply σ}
    {answer : (op : Op) → σ → Option (Reply op × σ)}
    (hanswer : ∀ op s r s', answer op s = some (r, s') → P.follows s op r s')
    {p : Program Op Reply α} {s s' : σ} {a : α} (h : p.runIf answer s = some (a, s')) :
    ∃ trace, Runs p trace a ∧ Follows P s trace s' := by
  induction p generalizing s with
  | done b =>
    cases h
    exact ⟨[], .done _, .nil _⟩
  | ask op next ih =>
    obtain ⟨⟨r, m⟩, hr, hnext⟩ := Option.bind_eq_some_iff.mp h
    obtain ⟨trace, hrun, hfollows⟩ := ih r hnext
    exact ⟨⟨op, r⟩ :: trace, .ask hrun, .cons (hanswer op s r m hr) hfollows⟩

end Program

open Program

/-- The answer of the nodes in memory. -/
def InMemory.answer? (r : Request) (p : InMemory) : Option (r.Reply × InMemory) :=
  match World.answer ⟨.inMemory p, .empty, {}⟩ r with
  | (reply, w) =>
    match w.backend with
    | .inMemory p' => some (reply, p')
    | .pool _ => none

theorem InMemory.replies_of_answer? {r : Request} {p p' : InMemory} {reply : r.Reply}
    (h : InMemory.answer? r p = some (reply, p')) : p.Replies r reply p' := by
  cases hanswer : World.answer ⟨.inMemory p, .empty, {}⟩ r with
  | mk reply' w =>
    unfold answer? at h
    rw [hanswer] at h
    cases hbackend : w.backend with
    | inMemory q =>
      simp only [hbackend] at h
      cases h
      exact .answers .empty {} w hanswer hbackend
    | pool q =>
      simp only [hbackend] at h
      cases h

namespace Service

variable {outside : InMemory → InMemory → Prop} {s s' : Service}

/-- Let a routine go on to its end. -/
def finish {α : Type} (rest : Routine α) (p : InMemory) : Option (α × InMemory) :=
  rest.runIf InMemory.answer? p

/-- A launch order may go on to its end. -/
theorem steps_finish_launch {rest : Routine LaunchReport} {report : LaunchReport} {p : InMemory}
    {others : List (Routine LaunchReport)} (hrest : s.launches = rest :: others)
    (h : finish rest s.provider = some (report, p)) :
    Steps outside s { s with provider := p, launches := .done report :: others } := by
  induction rest generalizing s with
  | done b =>
    cases h
    rw [← hrest]
  | ask r next ih =>
    obtain ⟨⟨reply, q⟩, hreply, hnext⟩ := Option.bind_eq_some_iff.mp h
    have hstep : Step outside s { s with provider := q, launches := next reply :: others } :=
      .launch (List.Perm.of_eq hrest) (InMemory.replies_of_answer? hreply)
    exact .head hstep (ih reply
      (s := { s with provider := q, launches := next reply :: others }) rfl hnext)

/-- An updater may go on to its end. -/
theorem steps_finish_updater {u : Update} {others : List Updater} {rest : Routine UpdateResult}
    {result : UpdateResult} {p : InMemory} (h : finish rest s.provider = some (result, p)) :
    Steps outside (s.goOn u others rest) (goOn { s with provider := p } u others (.done result)) := by
  induction rest generalizing s with
  | done b =>
    cases h
    exact .refl
  | ask r next ih =>
    obtain ⟨⟨reply, q⟩, hreply, hnext⟩ := Option.bind_eq_some_iff.mp h
    have hstep : Step outside (s.goOn u others (.ask r next))
        (goOn { s.goOn u others (.ask r next) with provider := q } u others (next reply)) :=
      .update (List.Perm.refl _) (InMemory.replies_of_answer? hreply)
    -- what goes on next does not depend on what the list of updaters was
    have hsame : goOn { s.goOn u others (.ask r next) with provider := q } u others (next reply) =
        goOn { s with provider := q } u others (next reply) := by
      cases next reply <;> rfl
    rw [hsame] at hstep
    exact .head hstep (ih reply (s := { s with provider := q }) hnext)

/-- Answer a question of a tick. An order that is waited for goes on to its end. -/
def answer? : (q : Question) → Service → Option (q.Reply × Service)
  | .request r, s => do
    let (reply, p) ← InMemory.answer? r s.provider
    return (⟨reply, s.ends⟩, { s with provider := p, ends := [] })
  | .dispatch u, s => some ((), { s with updaters := ⟨u, u.routine⟩ :: s.updaters })
  | .abandon nodes, s => some ((), s.drop nodes)
  | .launch o, s => some ((), { s with launches := o.routine :: s.launches })
  | .awaitLaunch, s =>
    match s.launches with
    | [] => none
    | rest :: others => do
      let (report, p) ← finish rest s.provider
      return (⟨.reported report, s.ends⟩, { s with provider := p, launches := others, ends := [] })

theorem servedBy_of_answer? {q : Question} {reply : q.Reply} (h : answer? q s = some (reply, s')) :
    q.ServedBy outside reply s s' := by
  cases q with
  | request r =>
    obtain ⟨⟨answer, p⟩, hanswer, hreply⟩ := Option.bind_eq_some_iff.mp h
    cases hreply
    exact ⟨s, p, .refl, InMemory.replies_of_answer? hanswer, rfl, rfl⟩
  | dispatch u =>
    cases h
    rfl
  | abandon nodes =>
    cases h
    rfl
  | launch o =>
    cases h
    rfl
  | awaitLaunch =>
    cases hlaunches : s.launches with
    | nil =>
      unfold answer? at h
      simp only [hlaunches] at h
      cases h
    | cons rest others =>
      unfold answer? at h
      simp only [hlaunches] at h
      obtain ⟨⟨report, p⟩, hfinish, hreply⟩ := Option.bind_eq_some_iff.mp h
      cases hreply
      exact ⟨_, .done report, others, steps_finish_launch hlaunches hfinish, List.Perm.refl _, rfl, rfl,
        rfl⟩

/-- Let a tick run to its end. -/
def tick? (s : Service) (files : FileStore) (now : Nat) (time : Duration) (l : ControlLoop) :
    Option ((Except LoopError TickSummary × ControlLoop) × Service) :=
  ((tick files now time).run l).runIf (fun (a : TickAsk) => answer? a.question) s

theorem exists_runs_of_tick? {files : FileStore} {now : Nat} {time : Duration} {l : ControlLoop}
    {r : Except LoopError TickSummary × ControlLoop} (h : s.tick? files now time l = some (r, s')) :
    ∃ trace, Runs ((tick files now time).run l) trace r ∧
      Follows (protocol outside) s trace s' :=
  exists_runs_of_runIf (P := protocol outside) (fun _ _ _ _ hanswer => servedBy_of_answer? hanswer) h

end Service

end ClusterScaler
