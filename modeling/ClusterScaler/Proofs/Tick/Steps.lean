import ClusterScaler.ControlLoop.Tick
import ClusterScaler.Proofs.Program.Protocol

/-!
# The steps of a tick under a protocol

A part of a tick meets a protocol from a loop and a state of the protocol. The rules follow the
steps that a tick is written in, so a statement about a tick comes apart into one about each of
its questions. Repeated calls come apart into their attempts.
-/

set_option autoImplicit false

namespace ClusterScaler.TickM

open Program

variable {σ α β : Type} {P : Protocol TickAsk TickAsk.Reply σ}

/-- From a loop and a state of the protocol, a part of a tick asks only what is permitted and ends
in an accepted result, loop and state. -/
def Meets (P : Protocol TickAsk TickAsk.Reply σ) (accepts : α → ControlLoop → σ → Prop)
    (x : TickM α) (l : ControlLoop) (s : σ) : Prop :=
  Program.Meets P (fun (r : α × ControlLoop) s' => accepts r.1 r.2 s') (x l) s

variable {l : ControlLoop} {s : σ}

theorem Meets.mono {accepts accepts' : α → ControlLoop → σ → Prop} {x : TickM α}
    (h : x.Meets P accepts l s) (himp : ∀ a l s, accepts a l s → accepts' a l s) :
    x.Meets P accepts' l s :=
  Program.Meets.mono h (fun r s' => himp r.1 r.2 s')

@[simp]
theorem meets_pure {accepts : α → ControlLoop → σ → Prop} {a : α} :
    Meets P accepts (pure a) l s ↔ accepts a l s :=
  Iff.rfl

@[simp]
theorem meets_bind {accepts : β → ControlLoop → σ → Prop} {x : TickM α} {f : α → TickM β} :
    Meets P accepts (x >>= f) l s ↔
      Meets P (fun a l' s' => Meets P accepts (f a) l' s') x l s :=
  Program.meets_bind

@[simp]
theorem meets_get {accepts : ControlLoop → ControlLoop → σ → Prop} :
    Meets P accepts (get : TickM ControlLoop) l s ↔ accepts l l s :=
  Iff.rfl

@[simp]
theorem meets_set {accepts : PUnit → ControlLoop → σ → Prop} {l' : ControlLoop} :
    Meets P accepts (set l' : TickM PUnit) l s ↔ accepts ⟨⟩ l' s :=
  Iff.rfl

@[simp]
theorem meets_modify {accepts : PUnit → ControlLoop → σ → Prop} {f : ControlLoop → ControlLoop} :
    Meets P accepts (modify f : TickM PUnit) l s ↔ accepts ⟨⟩ (f l) s :=
  Iff.rfl

@[simp]
theorem meets_ask {q : Question} {accepts : q.Reply → ControlLoop → σ → Prop} :
    Meets P accepts (ask q) l s ↔
      P.permits s ⟨l, q⟩ ∧ ∀ r s', P.follows s ⟨l, q⟩ r s' → accepts r l s' :=
  Iff.rfl

/-- A request has to be permitted; its answer finds the loop told about the updaters that ended. -/
@[simp]
theorem meets_request {r : Request} {accepts : r.Reply → ControlLoop → σ → Prop} :
    Meets P accepts (request r) l s ↔
      P.permits s ⟨l, .request r⟩ ∧ ∀ (d : Delivered r.Reply) s',
        P.follows s ⟨l, .request r⟩ d s' → accepts d.answer (l.complete d.ended) s' :=
  Iff.rfl

/-- Attempts at a call meet a protocol if each attempt does and leaves an invariant behind when it
fails, and pauses keep the invariant. -/
theorem meets_attempts {accepts : ProviderResult α → ControlLoop → σ → Prop}
    {inv : ControlLoop → σ → Prop} {policy : RetryPolicy} {call : TickM (ProviderResult α)}
    (hcall : ∀ l s, inv l s →
      call.Meets P (fun r l' s' => accepts r l' s' ∧ (r.isOk = false → inv l' s')) l s)
    (hpause : ∀ d l s, inv l s → (pause d).Meets P (fun _ l' s' => inv l' s') l s)
    (left : Nat) (l : ControlLoop) (s : σ) (h : inv l s) :
    Meets P accepts (policy.attempts pause call left) l s := by
  induction left generalizing l s with
  | zero => exact (hcall l s h).mono (fun _ _ _ hr => hr.1)
  | succ left ih =>
    unfold RetryPolicy.attempts
    rw [meets_bind]
    refine (hcall l s h).mono ?_
    intro r l' s' hr
    cases r with
    | ok a => exact hr.1
    | error e =>
      have hinv : inv l' s' := hr.2 rfl
      dsimp only
      split
      · rw [meets_bind]
        refine (hpause _ l' s' hinv).mono ?_
        intro _ l'' s'' hinv'
        exact ih l'' s'' hinv'
      · exact hr.1

/-- A repeated call meets a protocol if each attempt does and leaves an invariant behind when it
fails, and pauses keep the invariant. -/
theorem meets_retrying {accepts : ProviderResult α → ControlLoop → σ → Prop}
    {inv : ControlLoop → σ → Prop} {call : TickM (ProviderResult α)}
    (hcall : ∀ l s, inv l s →
      call.Meets P (fun r l' s' => accepts r l' s' ∧ (r.isOk = false → inv l' s')) l s)
    (hpause : ∀ d l s, inv l s → (pause d).Meets P (fun _ l' s' => inv l' s') l s)
    (h : inv l s) : Meets P accepts (retrying call) l s := by
  unfold retrying
  rw [meets_bind, meets_get]
  exact meets_attempts hcall hpause _ l s h

end ClusterScaler.TickM
