import ClusterScaler.Proofs.Exclusion.Pool
import ClusterScaler.Proofs.Tick.Begin
import ClusterScaler.Proofs.Tick.Midway
import ClusterScaler.Proofs.Tick.Success

/-!
# Ticks that differ in their breakers

Two ticks of one loop that start with different breakers go side by side: apart from what each of
them asks about launches, they ask the same questions as long as they get the same answers. So
they make the same calls, send the same updaters, and come to the same targets.
-/

set_option autoImplicit false

namespace ClusterScaler

open Program

/-- Whether a question is about the launches of a tick. -/
def Question.aboutLaunches : Question → Bool
  | .launch _ | .awaitLaunch => true
  | .request _ | .dispatch _ | .abandon _ => false

/-- Two answers to a question say the same, whatever ends of updaters come with them. -/
def Question.SameAnswer : (q : Question) → q.Reply → q.Reply → Prop
  | .request _, d, d' => d.answer = d'.answer
  | .awaitLaunch, _, _ | .dispatch _, _, _ | .abandon _, _, _ | .launch _, _, _ => True

/-- A call of the provider with its answer, or a pause. -/
abbrev Call := Exchange Request Request.Reply

/-- The call that a tick makes with a question. -/
def callOf? (x : Exchange TickAsk TickAsk.Reply) : Option Call :=
  match x with
  | ⟨⟨_, .request r⟩, d⟩ => some ⟨r, d.answer⟩
  | ⟨⟨_, .dispatch _⟩, _⟩ | ⟨⟨_, .abandon _⟩, _⟩ | ⟨⟨_, .launch _⟩, _⟩ | ⟨⟨_, .awaitLaunch⟩, _⟩ =>
    none

/-- The calls among what a tick asked. New nodes are not among them: launch orders ask for those. -/
def callsOf (trace : List (Exchange TickAsk TickAsk.Reply)) : List Call := trace.filterMap callOf?

/-- The updates that were sent out. -/
def updatesOf (trace : List (Exchange TickAsk TickAsk.Reply)) : List Update :=
  trace.filterMap (·.op.question.update?)

/-- The same call after the same calls got the same answer in both. -/
def AnsweredAlike (trace trace' : List (Exchange TickAsk TickAsk.Reply)) : Prop :=
  ∀ (before : List Call) (r : Request) (a a' : r.Reply),
    before ++ [⟨r, a⟩] <+: callsOf trace → before ++ [⟨r, a'⟩] <+: callsOf trace' → a = a'

/-- Two programs of ticks go side by side: each may ask about launches by itself, the other
questions they ask together, and as long as the answers are the same they go on side by side. -/
inductive SideBySide {α β : Type} (accepts : α → β → Prop) :
    Program TickAsk TickAsk.Reply α → Program TickAsk TickAsk.Reply β → Prop where
  | done {a : α} {b : β} : accepts a b → SideBySide accepts (.done a) (.done b)
  | left {a : TickAsk} {next : a.Reply → Program TickAsk TickAsk.Reply α}
      {q : Program TickAsk TickAsk.Reply β} : a.question.aboutLaunches = true →
      (∀ r, SideBySide accepts (next r) q) → SideBySide accepts (.ask a next) q
  | right {p : Program TickAsk TickAsk.Reply α} {a : TickAsk}
      {next : a.Reply → Program TickAsk TickAsk.Reply β} : a.question.aboutLaunches = true →
      (∀ r, SideBySide accepts p (next r)) → SideBySide accepts p (.ask a next)
  | both {l l' : ControlLoop} {q : Question} {next : q.Reply → Program TickAsk TickAsk.Reply α}
      {next' : q.Reply → Program TickAsk TickAsk.Reply β} :
      (∀ r r', q.SameAnswer r r' → SideBySide accepts (next r) (next' r')) →
        SideBySide accepts (.ask ⟨l, q⟩ next) (.ask ⟨l', q⟩ next')

namespace SideBySide

variable {α β γ δ : Type}

theorem bind {accepts : α → β → Prop} {accepts' : γ → δ → Prop}
    {p : Program TickAsk TickAsk.Reply α} {q : Program TickAsk TickAsk.Reply β}
    {f : α → Program TickAsk TickAsk.Reply γ} {g : β → Program TickAsk TickAsk.Reply δ}
    (h : SideBySide accepts p q)
    (hnext : ∀ a b, accepts a b → SideBySide accepts' (f a) (g b)) :
    SideBySide accepts' (p.bind f) (q.bind g) := by
  induction h with
  | done h => exact hnext _ _ h
  | left ha _ ih => exact .left ha ih
  | right ha _ ih => exact .right ha ih
  | both _ ih => exact .both ih

theorem mono {accepts accepts' : α → β → Prop} {p : Program TickAsk TickAsk.Reply α}
    {q : Program TickAsk TickAsk.Reply β} (h : SideBySide accepts p q)
    (himp : ∀ a b, accepts a b → accepts' a b) : SideBySide accepts' p q := by
  induction h with
  | done h => exact .done (himp _ _ h)
  | left ha _ ih => exact .left ha ih
  | right ha _ ih => exact .right ha ih
  | both _ ih => exact .both ih

/-- The protocol that permits questions about launches only. -/
def onlyLaunches : Protocol TickAsk TickAsk.Reply Unit where
  permits _ a := a.question.aboutLaunches = true
  follows _ _ _ _ := True

/-- Two programs that ask about launches only go side by side. -/
theorem of_onlyLaunches {accepts : α → Unit → Prop} {accepts' : β → Unit → Prop}
    {p : Program TickAsk TickAsk.Reply α} {q : Program TickAsk TickAsk.Reply β}
    (hp : p.Meets onlyLaunches accepts ()) (hq : q.Meets onlyLaunches accepts' ()) :
    SideBySide (fun a b => accepts a () ∧ accepts' b ()) p q := by
  induction p with
  | done a =>
    induction q with
    | done b => exact .done ⟨hp, hq⟩
    | ask op next ih => exact .right hq.1 (fun r => ih r (hq.2 r () trivial))
  | ask op next ih => exact .left hp.1 (fun r => ih r (hp.2 r () trivial))

theorem callsOf_cons_aboutLaunches {a : TickAsk} {r : a.Reply}
    {rest : List (Exchange TickAsk TickAsk.Reply)} (h : a.question.aboutLaunches = true) :
    callsOf (⟨a, r⟩ :: rest) = callsOf rest ∧ updatesOf (⟨a, r⟩ :: rest) = updatesOf rest := by
  obtain ⟨l, q⟩ := a
  cases q <;> first | exact ⟨rfl, rfl⟩ | cases h

/-- Runs side by side whose calls are answered alike make the same calls and send the same
updates. -/
theorem runs {accepts : α → β → Prop} {p : Program TickAsk TickAsk.Reply α}
    {q : Program TickAsk TickAsk.Reply β} {trace trace' : List (Exchange TickAsk TickAsk.Reply)}
    {a : α} {b : β} (h : SideBySide accepts p q) (hp : Runs p trace a) (hq : Runs q trace' b)
    (halike : AnsweredAlike trace trace') :
    callsOf trace = callsOf trace' ∧ updatesOf trace = updatesOf trace' ∧ accepts a b := by
  induction h generalizing trace trace' with
  | done haccepts =>
    cases hp
    cases hq
    exact ⟨rfl, rfl, haccepts⟩
  | left ha _ ih =>
    cases hp with
    | ask hp =>
      obtain ⟨hcalls, hupdates⟩ := callsOf_cons_aboutLaunches ha
      unfold AnsweredAlike at halike
      rw [hcalls] at halike ⊢
      rw [hupdates]
      exact ih _ hp hq halike
  | right ha _ ih =>
    cases hq with
    | ask hq =>
      obtain ⟨hcalls, hupdates⟩ := callsOf_cons_aboutLaunches ha
      unfold AnsweredAlike at halike
      rw [hcalls] at halike ⊢
      rw [hupdates]
      exact ih _ hp hq halike
  | @both l l' question next next' _ ih =>
    cases hp with
    | @ask _ _ r rest _ hp =>
      cases hq with
      | @ask _ _ r' rest' _ hq =>
        cases question with
        | request request =>
          have hsame : r.answer = r'.answer :=
            halike [] request _ _ (List.prefix_append [_] _) (List.prefix_append [_] _)
          have hrest : AnsweredAlike rest rest' := by
            intro before r₀ a₀ a₀' h h'
            refine halike (⟨request, r.answer⟩ :: before) r₀ a₀ a₀' ?_ ?_
            · exact List.cons_prefix_cons.mpr ⟨rfl, h⟩
            · rw [hsame]
              exact List.cons_prefix_cons.mpr ⟨rfl, h'⟩
          obtain ⟨hcalls, hupdates, haccepts⟩ := ih r r' hsame hp hq hrest
          refine ⟨?_, hupdates, haccepts⟩
          change (⟨request, r.answer⟩ : Call) :: callsOf rest = ⟨request, r'.answer⟩ :: callsOf rest'
          rw [hsame, hcalls]
        | dispatch u =>
          obtain ⟨hcalls, hupdates, haccepts⟩ := ih r r' trivial hp hq halike
          exact ⟨hcalls, congrArg (u :: ·) hupdates, haccepts⟩
        | abandon nodes =>
          have hrest := ih r r' trivial hp hq halike
          exact hrest
        | launch order =>
          have hrest := ih r r' trivial hp hq halike
          exact hrest
        | awaitLaunch =>
          have hrest := ih r r' trivial hp hq halike
          exact hrest

end SideBySide

namespace TickM

variable {α β : Type}

/-- Two parts of ticks go side by side from their loops. -/
def Beside (accepts : α → ControlLoop → α → ControlLoop → Prop) (x : TickM α) (l : ControlLoop)
    (y : TickM α) (l' : ControlLoop) : Prop :=
  SideBySide (fun r r' => accepts r.1 r.2 r'.1 r'.2) (x l) (y l')

variable {accepts : α → ControlLoop → α → ControlLoop → Prop} {x y : TickM α} {l l' : ControlLoop}

theorem beside_pure {a a' : α} (h : accepts a l a' l') :
    Beside accepts (pure a) l (pure a') l' :=
  .done h

theorem beside_bind {accepts' : β → ControlLoop → β → ControlLoop → Prop} {f g : α → TickM β}
    (h : Beside accepts x l y l')
    (hnext : ∀ a m a' m', accepts a m a' m' → Beside accepts' (f a) m (g a') m') :
    Beside accepts' (x >>= f) l (y >>= g) l' :=
  h.bind (fun r r' hr => hnext r.1 r.2 r'.1 r'.2 hr)

theorem beside_get_bind {f g : ControlLoop → TickM α} :
    Beside accepts (get >>= f) l (get >>= g) l' ↔ Beside accepts (f l) l (g l') l' :=
  Iff.rfl

theorem beside_set_bind {m m' : ControlLoop} {f g : PUnit → TickM α} :
    Beside accepts (set m >>= f) l (set m' >>= g) l' ↔
      Beside accepts (f ⟨⟩) m (g ⟨⟩) m' :=
  Iff.rfl

theorem beside_modify_bind {c c' : ControlLoop → ControlLoop} {f g : PUnit → TickM α} :
    Beside accepts (modify c >>= f) l (modify c' >>= g) l' ↔
      Beside accepts (f ⟨⟩) (c l) (g ⟨⟩) (c' l') :=
  Iff.rfl

theorem beside_ask_bind {q : Question} {f g : q.Reply → TickM α}
    (h : ∀ r r', q.SameAnswer r r' → Beside accepts (f r) l (g r') l') :
    Beside accepts (ask q >>= f) l (ask q >>= g) l' :=
  .both h

end TickM

/-- What a tick decides by, its breaker aside, is the same in both loops. -/
structure ControlLoop.Twin (l l' : ControlLoop) : Prop where
  config : l'.config = l.config
  hashes : l'.hashes = l.hashes
  loads : l'.loads = l.loads
  demand : l'.demand = l.demand
  tainted : l'.tainted = l.tainted
  states : l'.states = l.states
  pollInterval : l'.pollInterval = l.pollInterval
  retry : l'.retry = l.retry
  updating : ∀ id, l'.isUpdating id = l.isUpdating id

namespace ControlLoop

variable {l l' : ControlLoop}

/-- Ends of updaters free no slots before they are taken out. -/
theorem isUpdating_complete (l : ControlLoop) (ended : List (NodeId × UpdaterEnd)) (id : NodeId) :
    (l.complete ended).isUpdating id = l.isUpdating id :=
  UpdaterPool.isUpdating_completeAll

theorem Twin.refl (l : ControlLoop) : l.Twin l :=
  ⟨rfl, rfl, rfl, rfl, rfl, rfl, rfl, rfl, fun _ => rfl⟩

theorem Twin.symm (h : l.Twin l') : l'.Twin l :=
  ⟨h.config.symm, h.hashes.symm, h.loads.symm, h.demand.symm, h.tainted.symm, h.states.symm,
    h.pollInterval.symm, h.retry.symm, fun id => (h.updating id).symm⟩

theorem Twin.trans {l'' : ControlLoop} (h : l.Twin l') (h' : l'.Twin l'') : l.Twin l'' :=
  ⟨h'.config.trans h.config, h'.hashes.trans h.hashes, h'.loads.trans h.loads,
    h'.demand.trans h.demand, h'.tainted.trans h.tainted, h'.states.trans h.states,
    h'.pollInterval.trans h.pollInterval, h'.retry.trans h.retry,
    fun id => (h'.updating id).trans (h.updating id)⟩

theorem Twin.complete (h : l.Twin l') (ended ended' : List (NodeId × UpdaterEnd)) :
    (l.complete ended).Twin (l'.complete ended') := by
  refine { h with updating := fun id => ?_ }
  rw [isUpdating_complete, isUpdating_complete]
  exact h.updating id

theorem Twin.observed (h : l.Twin l') : l'.observed = l.observed := by
  funext n
  unfold ControlLoop.observed isUpToDate hashesFor?
  rw [h.updating, h.hashes]

theorem Twin.takeIn (h : l.Twin l') (nodes : List NodeRecord) (now : Nat) :
    (l.takeIn nodes now).Twin (l'.takeIn nodes now) := by
  have hstates : (l'.observe nodes).states = (l.observe nodes).states := by
    unfold observe
    dsimp only
    rw [h.states, h.observed]
  refine { h with loads := ?_, tainted := ?_, states := hstates }
  · unfold ControlLoop.takeIn refreshLoads
    dsimp only
    rw [hstates]
    change List.foldl _ (l'.loads.prune _).1 nodes = _
    rw [h.loads]
    rfl
  · change l'.tainted.filter _ = l.tainted.filter _
    rw [h.tainted]

theorem Twin.planTick (h : l.Twin l') (now : Nat) (nodes : List NodeRecord) :
    l'.planTick now nodes = l.planTick now nodes := by
  have hforced : l'.forcedReason = l.forcedReason := by
    funext now n
    unfold forcedReason hashesFor?
    rw [h.updating, h.hashes, h.tainted, h.loads]
  have hcapacity : l'.capacityOf = l.capacityOf := by
    funext now n
    unfold capacityOf
    rw [h.loads, h.config]
  have hexcess : l'.planExcess = l.planExcess := by
    funext healthy targets
    unfold planExcess excessOf
    simp only [h.updating]
  unfold ControlLoop.planTick targetsOf healthyOf
  rw [hforced, hcapacity, hexcess, h.config, h.demand]

theorem Twin.behind? (h : l.Twin l') : l'.behind? = l.behind? := by
  funext n
  unfold ControlLoop.behind?
  rw [h.updating, h.tainted, h.hashes]

theorem Twin.updateFor (h : l.Twin l') : l'.updateFor = l.updateFor := by
  funext node nodeType hashes head
  unfold ControlLoop.updateFor
  rw [h.config, h.pollInterval, h.retry]

end ControlLoop

end ClusterScaler
