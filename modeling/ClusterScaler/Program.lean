/-!
# Programs that ask

A program is a finite tree of questions: it is done, or it asks something and goes on with the
answer. Who answers, and how long that takes, is left open, so one program runs against memory,
against a recorded script or on a clock, and statements about it can quantify over all answers.
-/

set_option autoImplicit false

namespace ClusterScaler

/-- A program that asks questions `Op`, each answered by a `Reply` of its own type. -/
inductive Program (Op : Type) (Reply : Op → Type) (α : Type) where
  | done (a : α)
  | ask (op : Op) (next : Reply op → Program Op Reply α)

namespace Program

variable {Op : Type} {Reply : Op → Type} {α β : Type}

/-- Go on with the result of a program. -/
def bind (p : Program Op Reply α) (f : α → Program Op Reply β) : Program Op Reply β :=
  match p with
  | done a => f a
  | ask op next => ask op (fun r => (next r).bind f)

instance : Monad (Program Op Reply) where
  pure := done
  bind := bind

/-- Ask one question. -/
def call (op : Op) : Program Op Reply (Reply op) := ask op done

/-- Run a program with someone who answers from a state. -/
def run {σ : Type} (answer : (op : Op) → σ → Reply op × σ) :
    Program Op Reply α → σ → α × σ
  | done a, s => (a, s)
  | ask op next, s =>
    let (r, s) := answer op s
    (next r).run answer s

/-- A question together with its answer. -/
structure Exchange (Op : Type) (Reply : Op → Type) where
  op : Op
  reply : Reply op

/-- A program may have this exchange of questions and answers and then be done with a result. -/
inductive Runs : Program Op Reply α → List (Exchange Op Reply) → α → Prop where
  | done (a : α) : Runs (.done a) [] a
  | ask {op : Op} {next : Reply op → Program Op Reply α} {r : Reply op}
      {rest : List (Exchange Op Reply)} {a : α} :
      Runs (next r) rest a → Runs (.ask op next) (⟨op, r⟩ :: rest) a

theorem pure_bind (a : α) (f : α → Program Op Reply β) : (done a).bind f = f a := rfl

theorem bind_pure (p : Program Op Reply α) : p.bind done = p := by
  induction p with
  | done => rfl
  | ask op next ih => exact congrArg (ask op) (funext ih)

theorem bind_assoc {γ : Type} (p : Program Op Reply α) (f : α → Program Op Reply β)
    (g : β → Program Op Reply γ) : (p.bind f).bind g = p.bind (fun a => (f a).bind g) := by
  induction p with
  | done => rfl
  | ask op next ih => exact congrArg (ask op) (funext ih)

end Program

end ClusterScaler
