import ClusterScaler.Proofs.Tick.Steps

/-!
# Ticks that ask the same

Two programs of ticks go abreast if they ask the same questions one after the other, whatever loops
they show with them, and go on abreast as long as they get the same answers. Then two runs that are
answered the same have asked the same, to the last question, and come to related results.
-/

set_option autoImplicit false

namespace ClusterScaler

open Program

/-- What is answered to a question, without the ends of updaters that came meanwhile. -/
@[reducible]
def Question.Answer : Question → Type
  | request r => r.Reply
  | awaitLaunch => LaunchEnd
  | dispatch _ | abandon _ | launch _ => Unit

/-- What a reply answers. -/
def Question.answer : (q : Question) → q.Reply → q.Answer
  | .request _, d => d.answer
  | .awaitLaunch, d => d.answer
  | .dispatch _, _ | .abandon _, _ | .launch _, _ => ()

/-- A question with what was answered to it. -/
abbrev Said := Exchange Question Question.Answer

/-- A question of a tick with what was answered to it. -/
def saidBy (x : Exchange TickAsk TickAsk.Reply) : Said :=
  ⟨x.op.question, x.op.question.answer x.reply⟩

/-- What was asked and answered in a tick. -/
def dialogueOf (trace : List (Exchange TickAsk TickAsk.Reply)) : List Said := trace.map saidBy

/-- The same question, asked after the same dialogue, got the same answer in both. -/
def AnsweredTheSame (trace trace' : List (Exchange TickAsk TickAsk.Reply)) : Prop :=
  ∀ (before : List Said) (q : Question) (a a' : q.Answer),
    before ++ [⟨q, a⟩] <+: dialogueOf trace → before ++ [⟨q, a'⟩] <+: dialogueOf trace' → a = a'

/-- The first answers are the same, and so are those after them. -/
theorem AnsweredTheSame.cons {q : Question} {l l' : ControlLoop} {r r' : q.Reply}
    {rest rest' : List (Exchange TickAsk TickAsk.Reply)}
    (h : AnsweredTheSame (⟨⟨l, q⟩, r⟩ :: rest) (⟨⟨l', q⟩, r'⟩ :: rest')) :
    q.answer r = q.answer r' ∧ AnsweredTheSame rest rest' := by
  have hfirst : q.answer r = q.answer r' :=
    h [] q _ _ (List.prefix_append [_] _) (List.prefix_append [_] _)
  refine ⟨hfirst, ?_⟩
  intro before q₀ a a' hprefix hprefix'
  refine h (⟨q, q.answer r⟩ :: before) q₀ a a' ?_ ?_
  · exact List.cons_prefix_cons.mpr ⟨rfl, hprefix⟩
  · rw [hfirst]
    exact List.cons_prefix_cons.mpr ⟨rfl, hprefix'⟩

/-- Two programs of ticks ask the same questions one after the other, as long as the answers are the
same, and come to accepted results. -/
inductive Abreast {α β : Type} (accepts : α → β → Prop) :
    Program TickAsk TickAsk.Reply α → Program TickAsk TickAsk.Reply β → Prop where
  | done {a : α} {b : β} : accepts a b → Abreast accepts (.done a) (.done b)
  | ask {l l' : ControlLoop} {q : Question} {next : q.Reply → Program TickAsk TickAsk.Reply α}
      {next' : q.Reply → Program TickAsk TickAsk.Reply β} :
      (∀ r r', q.answer r = q.answer r' → Abreast accepts (next r) (next' r')) →
        Abreast accepts (.ask ⟨l, q⟩ next) (.ask ⟨l', q⟩ next')

namespace Abreast

variable {α β γ δ : Type} {accepts : α → β → Prop} {p : Program TickAsk TickAsk.Reply α}
  {q : Program TickAsk TickAsk.Reply β}

theorem bind {accepts' : γ → δ → Prop} {f : α → Program TickAsk TickAsk.Reply γ}
    {g : β → Program TickAsk TickAsk.Reply δ} (h : Abreast accepts p q)
    (hnext : ∀ a b, accepts a b → Abreast accepts' (f a) (g b)) :
    Abreast accepts' (p.bind f) (q.bind g) := by
  induction h with
  | done h => exact hnext _ _ h
  | ask _ ih => exact .ask ih

/-- Runs abreast that are answered the same have the same dialogue. -/
theorem runs {trace trace' : List (Exchange TickAsk TickAsk.Reply)} {a : α} {b : β}
    (h : Abreast accepts p q) (hp : Runs p trace a) (hq : Runs q trace' b)
    (hsame : AnsweredTheSame trace trace') :
    dialogueOf trace = dialogueOf trace' ∧ accepts a b := by
  induction h generalizing trace trace' with
  | done haccepts =>
    cases hp
    cases hq
    exact ⟨rfl, haccepts⟩
  | @ask l l' question next next' _ ih =>
    cases hp with
    | @ask _ _ r rest _ hp =>
      cases hq with
      | @ask _ _ r' rest' _ hq =>
        obtain ⟨hanswer, hrest⟩ := hsame.cons
        obtain ⟨hdialogue, haccepts⟩ := ih r r' hanswer hp hq hrest
        refine ⟨?_, haccepts⟩
        change (⟨question, question.answer r⟩ : Said) :: dialogueOf rest =
          ⟨question, question.answer r'⟩ :: dialogueOf rest'
        rw [hanswer, hdialogue]

end Abreast

namespace TickM

variable {α β : Type}

/-- Two parts of ticks go abreast from their loops. -/
def Together (accepts : α → ControlLoop → α → ControlLoop → Prop) (x : TickM α) (l : ControlLoop)
    (y : TickM α) (l' : ControlLoop) : Prop :=
  Abreast (fun r r' => accepts r.1 r.2 r'.1 r'.2) (x l) (y l')

variable {accepts : α → ControlLoop → α → ControlLoop → Prop} {x y : TickM α} {l l' : ControlLoop}

theorem together_pure {a a' : α} (h : accepts a l a' l') :
    Together accepts (pure a) l (pure a') l' :=
  .done h

theorem together_bind {accepts' : β → ControlLoop → β → ControlLoop → Prop} {f g : α → TickM β}
    (h : Together accepts x l y l')
    (hnext : ∀ a m a' m', accepts a m a' m' → Together accepts' (f a) m (g a') m') :
    Together accepts' (x >>= f) l (y >>= g) l' :=
  h.bind (fun r r' hr => hnext r.1 r.2 r'.1 r'.2 hr)

theorem together_get_bind {f g : ControlLoop → TickM α} :
    Together accepts (get >>= f) l (get >>= g) l' ↔ Together accepts (f l) l (g l') l' :=
  Iff.rfl

theorem together_set_bind {m m' : ControlLoop} {f g : PUnit → TickM α} :
    Together accepts (set m >>= f) l (set m' >>= g) l' ↔
      Together accepts (f ⟨⟩) m (g ⟨⟩) m' :=
  Iff.rfl

theorem together_modify_bind {c c' : ControlLoop → ControlLoop} {f g : PUnit → TickM α} :
    Together accepts (modify c >>= f) l (modify c' >>= g) l' ↔
      Together accepts (f ⟨⟩) (c l) (g ⟨⟩) (c' l') :=
  Iff.rfl

theorem together_ask_bind {q : Question} {f g : q.Reply → TickM α}
    (h : ∀ r r', q.answer r = q.answer r' → Together accepts (f r) l (g r') l') :
    Together accepts (ask q >>= f) l (ask q >>= g) l' :=
  .ask h

end TickM

end ClusterScaler
