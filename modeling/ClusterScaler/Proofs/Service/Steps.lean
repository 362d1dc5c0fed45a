import ClusterScaler.Proofs.Provider.Answers
import ClusterScaler.Proofs.Tick.Frame
import Mathlib.Logic.Relation

/-!
# A tick and what runs beside it

The nodes in memory, with the launch orders and the updaters that work on them. While a tick waits
for an answer, these go on in any order: one of them gets an answer and goes on, an updater is cut
off or breaks down, or something happens to the nodes from outside. A protocol ties the answers
of a tick to the nodes as they are when it is answered.
-/

set_option autoImplicit false

namespace ClusterScaler

open Program

/-- A look at the nodes makes and terminates none and writes no tags. -/
theorem Request.of_looks {r : Request} (h : r.looks = true) : r.Tidy ∧ r.createsNodes = false ∧
    r.terminates = false ∧ ∀ node tags, r ≠ .setNodeTags node tags := by
  cases r <;> first
    | exact ⟨trivial, rfl, rfl, fun _ _ heq => by cases heq⟩
    | cases h

/-- An update from its start to its end. -/
def Update.routine (u : Update) : Routine UpdateResult := u.apply.bind u.conclude

/-- An updater under way, with what is left of its update. -/
structure Updater where
  update : Update
  rest : Routine UpdateResult

/-- The nodes, and what works on them. -/
structure Service where
  provider : InMemory
  launches : List (Routine LaunchReport) := []
  updaters : List Updater := []
  /-- The ends of updaters that nobody has taken note of yet. -/
  ends : List (NodeId × UpdaterEnd) := []
  /-- The nodes that were brought up to date and the files hash each of them has since, in order. -/
  successes : List (NodeId × ConfigHash) := []

namespace Service

/-- An updater goes on with the rest of its update, or comes to its end. -/
def goOn (s : Service) (u : Update) (others : List Updater) : Routine UpdateResult → Service
  | .done result =>
    { s with
      updaters := others
      ends := s.ends ++ [(u.request.node, .finished result)]
      successes := s.successes ++
        if result.isOk then [(u.request.node, u.request.targetHash)] else [] }
  | .ask r next => { s with updaters := ⟨u, .ask r next⟩ :: others }

/-- Stop the updaters of nodes. -/
def drop (s : Service) (nodes : List NodeId) : Service :=
  { s with
    updaters := s.updaters.filter (fun x => !nodes.contains x.update.request.node)
    ends := s.ends.filter (fun e => !nodes.contains e.1) }

/-- What may happen beside a tick. -/
inductive Step (outside : InMemory → InMemory → Prop) : Service → Service → Prop where
  /-- Something happens to the nodes from outside. -/
  | outside {s : Service} {p : InMemory} :
    outside s.provider p → Step outside s { s with provider := p }
  /-- A launch order gets an answer. -/
  | launch {s : Service} {r : Request} {next : r.Reply → Routine LaunchReport}
      {others : List (Routine LaunchReport)} {reply : r.Reply} {p : InMemory} :
    s.launches.Perm (.ask r next :: others) → s.provider.Replies r reply p →
      Step outside s { s with provider := p, launches := next reply :: others }
  /-- An updater gets an answer. -/
  | update {s : Service} {u : Update} {r : Request} {next : r.Reply → Routine UpdateResult}
      {others : List Updater} {reply : r.Reply} {p : InMemory} :
    s.updaters.Perm (⟨u, .ask r next⟩ :: others) → s.provider.Replies r reply p →
      Step outside s (goOn { s with provider := p } u others (next reply))
  /-- An updater is cut off at its timeout. -/
  | timeout {s : Service} {u : Update} {rest : Routine UpdateResult} {others : List Updater} :
    s.updaters.Perm (⟨u, rest⟩ :: others) →
      Step outside s (s.goOn u others (u.conclude (.error (.timeout u.timeout))))
  /-- An updater breaks down. -/
  | panic {s : Service} {x : Updater} {others : List Updater} :
    s.updaters.Perm (x :: others) →
      Step outside s
        { s with updaters := others, ends := s.ends ++ [(x.update.request.node, .panicked)] }

/-- Any number of steps. -/
abbrev Steps (outside : InMemory → InMemory → Prop) : Service → Service → Prop :=
  Relation.ReflTransGen (Step outside)

variable {outside outside' : InMemory → InMemory → Prop} {s s' : Service}

/-- What may happen with little from outside may happen with more. -/
theorem Step.mono (h : Step outside s s') (himp : ∀ p p', outside p p' → outside' p p') :
    Step outside' s s' := by
  cases h with
  | outside hp => exact .outside (himp _ _ hp)
  | launch hperm hreplies => exact .launch hperm hreplies
  | update hperm hreplies => exact .update hperm hreplies
  | timeout hperm => exact .timeout hperm
  | panic hperm => exact .panic hperm

theorem Steps.mono (h : Steps outside s s') (himp : ∀ p p', outside p p' → outside' p p') :
    Steps outside' s s' := by
  induction h with
  | refl => exact .refl
  | tail _ hstep ih => exact ih.tail (hstep.mono himp)

end Service

/-- How a launch order ended: with its report, or broken down wherever it stood. -/
def LaunchEnd.Of : LaunchEnd → Routine LaunchReport → Prop
  | .reported report, rest => rest = .done report
  | .panicked, _ => True

/-- A question is answered by the service. -/
def Question.ServedBy (outside : InMemory → InMemory → Prop) :
    (q : Question) → q.Reply → Service → Service → Prop
  | .request r, d, s, s' => ∃ m p, Service.Steps outside s m ∧ m.provider.Replies r d.answer p ∧
    d.ended = m.ends ∧ s' = { m with provider := p, ends := [] }
  | .awaitLaunch, d, s, s' => ∃ m rest others, Service.Steps outside s m ∧
    m.launches.Perm (rest :: others) ∧ d.answer.Of rest ∧ d.ended = m.ends ∧
      s' = { m with launches := others, ends := [] }
  | .dispatch u, _, s, s' => s' = { s with updaters := ⟨u, u.routine⟩ :: s.updaters }
  | .abandon nodes, _, s, s' => s' = s.drop nodes
  | .launch o, _, s, s' => s' = { s with launches := o.routine :: s.launches }

theorem Question.ServedBy.mono {outside outside' : InMemory → InMemory → Prop} {q : Question}
    {reply : q.Reply} {s s' : Service} (h : q.ServedBy outside reply s s')
    (himp : ∀ p p', outside p p' → outside' p p') : q.ServedBy outside' reply s s' := by
  cases q with
  | request r =>
    obtain ⟨m, p, hsteps, hrest⟩ := h
    exact ⟨m, p, hsteps.mono himp, hrest⟩
  | awaitLaunch =>
    obtain ⟨m, rest, others, hsteps, hrest⟩ := h
    exact ⟨m, rest, others, hsteps.mono himp, hrest⟩
  | dispatch u => exact h
  | abandon nodes => exact h
  | launch o => exact h

/-- The answers of a tick are those of the service. -/
def Service.protocol (outside : InMemory → InMemory → Prop) :
    Protocol TickAsk TickAsk.Reply Service where
  permits _ _ := True
  follows s a r s' := a.question.ServedBy outside r s s'

end ClusterScaler
