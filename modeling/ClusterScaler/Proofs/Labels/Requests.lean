import ClusterScaler.Proofs.Service.Updates

/-!
# What a question leads to

A question of a tick may lead to requests: it is a request itself, or it sends out a launch order or
an updater that makes requests of its own. Launch orders ask for nodes and for nothing else, and
updaters neither make nor terminate nodes.
-/

set_option autoImplicit false

namespace ClusterScaler

open Program

namespace Program

variable {Op : Type} {Reply : Op → Type} {σ α : Type}

/-- A program asks something in some run. -/
inductive Asks : Program Op Reply α → Op → Prop where
  | now (op : Op) (next : Reply op → Program Op Reply α) : Asks (.ask op next) op
  | later {op op' : Op} {next : Reply op → Program Op Reply α} (r : Reply op) :
    Asks (next r) op' → Asks (.ask op next) op'

/-- Where every answer to a permitted question is expected, a program that meets a protocol asks in
all its runs only what is permitted in some state. -/
theorem Meets.asks {P : Protocol Op Reply σ} {accepts : α → σ → Prop} {p : Program Op Reply α}
    {s : σ} {op : Op} (h : p.Meets P accepts s) (htotal : ∀ s op r, ∃ s', P.follows s op r s')
    (hasks : Asks p op) : ∃ s, P.permits s op := by
  induction hasks generalizing s with
  | now op next => exact ⟨s, h.1⟩
  | later r _ ih =>
    obtain ⟨s', hfollows⟩ := htotal s _ r
    exact ih (h.2 r s' hfollows)

theorem Begins.asks {p : Program Op Reply α} {trace : List (Exchange Op Reply)} {op : Op}
    {next : Reply op → Program Op Reply α} (h : Begins p trace (.ask op next)) : Asks p op := by
  generalize hleft : Program.ask op next = left at h
  induction h with
  | here p =>
    subst hleft
    exact .now op next
  | ask _ ih => exact .later _ (ih hleft)

/-- What a program has asked it asks in some run. -/
theorem Begins.asks_of_mem {p left : Program Op Reply α} {trace : List (Exchange Op Reply)}
    {x : Exchange Op Reply} (h : Begins p trace left) (hx : x ∈ trace) : Asks p x.op := by
  induction h with
  | here p => cases hx
  | ask _ ih =>
    rcases List.mem_cons.mp hx with rfl | hx
    · exact .now _ _
    · exact .later _ (ih hx)

theorem Begins.answered {p : Program Op Reply α} {trace : List (Exchange Op Reply)} {op : Op}
    {next : Reply op → Program Op Reply α} (h : Begins p trace (.ask op next)) (r : Reply op) :
    Begins p (trace ++ [⟨op, r⟩]) (next r) := by
  generalize hleft : Program.ask op next = left at h
  induction h with
  | here p =>
    subst hleft
    exact .ask (.here _)
  | ask _ ih => exact .ask (ih hleft)

end Program

/-- A launch order asks for nodes of its template with its tags, and for nothing else. -/
theorem LaunchOrder.asks_batches {o : LaunchOrder} {fuel launched : Nat} {r : Request}
    (h : Asks (o.batches fuel launched) r) : ∃ n, r = .createNodes o.template o.tags n := by
  induction fuel generalizing launched with
  | zero => cases h
  | succ fuel ih =>
    unfold LaunchOrder.batches at h
    split at h
    · cases h with
      | now op next => exact ⟨_, rfl⟩
      | later reply hrest =>
        cases reply with
        | error e => cases hrest
        | ok _ => exact ih hrest
    · cases h

theorem LaunchOrder.exists_asks (o : LaunchOrder) (hcount : 0 < o.count) :
    ∃ n, Asks o.routine (.createNodes o.template o.tags n) := by
  have hbatch : ∀ fuel, Asks (o.batches (fuel + 1) 0)
      (.createNodes o.template o.tags (min (o.count - 0) o.batch)) := by
    intro fuel
    unfold batches
    rw [if_pos hcount]
    exact .now _ _
  obtain ⟨fuel, hfuel⟩ := Nat.exists_eq_add_one_of_ne_zero (Nat.ne_of_gt hcount)
  refine ⟨min (o.count - 0) o.batch, ?_⟩
  have hasks := hbatch fuel
  rw [← hfuel] at hasks
  exact hasks

namespace Update

variable {u : Update} {r : Request}

theorem OnItsWay.asks {rest : Routine UpdateResult} (h : u.OnItsWay rest) (hasks : Asks rest r) :
    u.Minor r ∨ r = .setNodeTags u.request.node u.finalTags := by
  obtain ⟨_, -, hpermitted⟩ := Meets.asks h (fun _ _ _ => ⟨_, rfl⟩) hasks
  exact hpermitted

/-- An update asks for something on its way, or when it is cut off. -/
def MayAsk (u : Update) (r : Request) : Prop :=
  Asks u.routine r ∨ ∃ result, Asks (u.conclude result) r

/-- An update neither makes nor terminates nodes. -/
theorem MayAsk.spares (h : u.MayAsk r) : r.createsNodes = false ∧ r.terminates = false := by
  have hway : u.Minor r ∨ r = .setNodeTags u.request.node u.finalTags := by
    rcases h with hasks | ⟨result, hasks⟩
    · exact onItsWay_routine.asks hasks
    · cases result with
      | ok _ => cases hasks
      | error e => exact (onItsWay_conclude e).asks hasks
  rcases hway with hminor | rfl
  · exact ⟨hminor.creates, hminor.terminates⟩
  · exact ⟨rfl, rfl⟩

end Update

/-- A question of a tick leads to a request: it is that request, or what it sends out asks for it. -/
def Question.LeadsTo : Question → Request → Prop
  | .request r, r' => r' = r
  | .launch o, r => Asks o.routine r
  | .dispatch u, r => u.MayAsk r
  | .abandon _, _ | .awaitLaunch, _ => False

namespace Question.LeadsTo

variable {q : Question}

/-- Only launch orders and requests for new nodes lead to any, and an order gives them its tags. -/
theorem creates {template : LaunchConfig} {tags : Tags} {n : Nat}
    (h : q.LeadsTo (.createNodes template tags n)) :
    q = .request (.createNodes template tags n) ∨
      ∃ o, q = .launch o ∧ o.template = template ∧ o.tags = tags := by
  cases q with
  | request r => exact .inl (congrArg Question.request (Eq.symm h))
  | launch o =>
    obtain ⟨m, horder⟩ := LaunchOrder.asks_batches h
    cases horder
    exact .inr ⟨o, rfl, rfl, rfl⟩
  | dispatch u => cases (Update.MayAsk.spares h).1
  | abandon nodes => exact h.elim
  | awaitLaunch => exact h.elim

/-- Only requests for terminations lead to any. -/
theorem terminates {r : Request} (h : q.LeadsTo r) (hr : r.terminates = true) : q = .request r := by
  cases q with
  | request r' => exact congrArg Question.request (Eq.symm h)
  | launch o =>
    obtain ⟨m, rfl⟩ := LaunchOrder.asks_batches h
    cases hr
  | dispatch u =>
    rw [(Update.MayAsk.spares h).2] at hr
    cases hr
  | abandon nodes => exact h.elim
  | awaitLaunch => exact h.elim

end Question.LeadsTo

end ClusterScaler
