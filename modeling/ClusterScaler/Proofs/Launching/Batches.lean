import ClusterScaler.Proofs.Planning.Orders
import ClusterScaler.Proofs.Service.Launches
import Mathlib.Algebra.Order.BigOperators.Group.List

/-!
# The batches of a launch order

A launch order is carried out by a task, which asks for one batch after the other and waits for the
answer to each. Where a task stands follows from the batches that it was granted so far, and from
whether one was refused: `LaunchTask.Course` names the two ways it can go, an answer leads from one
to the other, and `LaunchTask.Course.batched` reads off what a task has asked for.
-/

set_option autoImplicit false

namespace ClusterScaler

open Program

/-- How many nodes a request asks for. -/
def Request.size : Request → Nat
  | .createNodes _ _ n => n
  | _ => 0

/-- Whether a request for nodes has failed. -/
def Request.refused : (r : Request) → r.Reply → Bool
  | .createNodes .., .error _ => true
  | _, _ => false

/-- A task that carries out a launch order: its calls that were answered, and what is left of it. -/
structure LaunchTask where
  order : LaunchOrder
  answered : List RequestExchange
  rest : Routine LaunchReport

namespace LaunchTask

/-- The task of an order that starts. -/
def start (o : LaunchOrder) : LaunchTask := ⟨o, [], o.routine⟩

/-- The call that a task waits for. -/
def outstanding? (t : LaunchTask) : Option Request :=
  match t.rest with
  | .ask r _ => some r
  | .done _ => none

/-- The calls of a task so far. -/
def asked (t : LaunchTask) : List Request := t.answered.map (·.op) ++ t.outstanding?.toList

/-- The nodes that the calls of a task have created. -/
def created (t : LaunchTask) : Nat := (t.answered.map (fun x => x.op.created x.reply)).sum

/-- Whether a call of a task has failed. -/
def failed (t : LaunchTask) : Bool := t.answered.any (fun x => x.op.refused x.reply)

/-- A task asks for its nodes in batches: all calls are for nodes of the order, at least one and at
most `batch` of them, and not for more than the order in all. A call that fails is the last one, and
a task that is over without a failure has asked for all nodes. -/
structure Batched (batch : Nat) (t : LaunchTask) : Prop where
  calls : ∀ r ∈ t.asked, ∃ n, r = .createNodes t.order.template t.order.tags n ∧ 1 ≤ n ∧ n ≤ batch
  within : (t.asked.map Request.size).sum ≤ t.order.count
  stops : ∀ before x after, t.answered = before ++ x :: after → x.op.refused x.reply = true →
    after = [] ∧ t.outstanding? = none
  all : t.outstanding? = none → t.failed = false → (t.asked.map Request.size).sum = t.order.count

end LaunchTask

namespace LaunchOrder

/-- A call of an order, with its answer. -/
def call (o : LaunchOrder) (reply : ProviderResult Unit) (n : Nat) : RequestExchange :=
  ⟨.createNodes o.template o.tags n, reply⟩

/-- What is left of an order once a batch is answered. -/
def afterBatch (o : LaunchOrder) (fuel launched n : Nat) : ProviderResult Unit → Routine LaunchReport
  | .error e => .done ⟨o.template.nodeType, launched, some e⟩
  | .ok () => o.batches fuel (launched + n)

/-- One batch after the other is asked for. -/
theorem batches_succ (o : LaunchOrder) (fuel launched : Nat) :
    o.batches (fuel + 1) launched =
      if launched < o.count then
        .ask (.createNodes o.template o.tags (min (o.count - launched) o.batch))
          (o.afterBatch fuel launched (min (o.count - launched) o.batch))
      else .done ⟨o.template.nodeType, launched, none⟩ := by
  rw [batches]
  split
  · refine congrArg (Program.ask _) (funext fun reply => ?_)
    cases reply <;> rfl
  · rfl

end LaunchOrder

namespace LaunchTask

variable {o : LaunchOrder} {sizes : List Nat}

/-- Where a task can stand once batches of some sizes were granted: it waits for the answer to the
next one, or that one was refused, or all its nodes have come. -/
inductive Course (o : LaunchOrder) : LaunchTask → Prop where
  | waiting {sizes : List Nat} {n fuel : Nat} :
    (∀ k ∈ sizes ++ [n], 1 ≤ k ∧ k ≤ o.batch) → (sizes ++ [n]).sum ≤ o.count →
      o.count ≤ (sizes ++ [n]).sum + fuel →
        Course o ⟨o, sizes.map (o.call (.ok ())),
          .ask (.createNodes o.template o.tags n) (o.afterBatch fuel sizes.sum n)⟩
  | refused {sizes : List Nat} {n : Nat} {e : ProviderError} :
    (∀ k ∈ sizes ++ [n], 1 ≤ k ∧ k ≤ o.batch) → (sizes ++ [n]).sum ≤ o.count →
      Course o ⟨o, sizes.map (o.call (.ok ())) ++ [o.call (.error e) n],
        .done ⟨o.template.nodeType, sizes.sum, some e⟩⟩
  | complete {sizes : List Nat} :
    (∀ k ∈ sizes, 1 ≤ k ∧ k ≤ o.batch) → sizes.sum = o.count →
      Course o ⟨o, sizes.map (o.call (.ok ())), .done ⟨o.template.nodeType, sizes.sum, none⟩⟩

/-- A task whose batches were all granted waits for the next one, or has all its nodes. -/
theorem course_batches (hbatch : 0 < o.batch) (hsizes : ∀ k ∈ sizes, 1 ≤ k ∧ k ≤ o.batch)
    (hwithin : sizes.sum ≤ o.count) {fuel : Nat} (hfuel : o.count ≤ sizes.sum + fuel) :
    Course o ⟨o, sizes.map (o.call (.ok ())), o.batches fuel sizes.sum⟩ := by
  cases fuel with
  | zero => exact .complete hsizes (by omega)
  | succ fuel =>
    rw [LaunchOrder.batches_succ]
    split
    · next hmore =>
      refine .waiting ?_ ?_ ?_
      · intro k hk
        rcases List.mem_append.mp hk with hk | hk
        · exact hsizes k hk
        · rw [List.mem_singleton.mp hk]
          omega
      · rw [List.sum_append, List.sum_singleton]
        omega
      · rw [List.sum_append, List.sum_singleton]
        omega
    · exact .complete hsizes (by omega)

theorem course_start (hbatch : 0 < o.batch) : Course o (start o) :=
  @course_batches o [] hbatch (fun _ h => absurd h List.not_mem_nil) (Nat.zero_le _) o.count
    (Nat.le_add_left _ _)

/-- An answer leads a task on its course. -/
theorem Course.answered (hbatch : 0 < o.batch) {calls : List RequestExchange} {r : Request}
    {next : r.Reply → Routine LaunchReport} (h : Course o ⟨o, calls, .ask r next⟩)
    (reply : r.Reply) : Course o ⟨o, calls ++ [⟨r, reply⟩], next reply⟩ := by
  cases h with
  | @waiting sizes n fuel hsizes hwithin hfuel =>
    cases reply with
    | error e => exact .refused hsizes hwithin
    | ok _ =>
      have hgoing := course_batches hbatch hsizes hwithin hfuel
      rw [List.sum_append, List.sum_singleton, List.map_append] at hgoing
      exact hgoing

theorem ops_granted (o : LaunchOrder) (sizes : List Nat) :
    (sizes.map (o.call (.ok ()))).map (·.op) = sizes.map (.createNodes o.template o.tags) := by
  rw [List.map_map]
  rfl

theorem sizes_asked (o : LaunchOrder) (sizes : List Nat) :
    (sizes.map (.createNodes o.template o.tags)).map Request.size = sizes := by
  rw [List.map_map]
  exact List.map_id sizes

theorem created_granted (o : LaunchOrder) (sizes : List Nat) :
    ((sizes.map (o.call (.ok ()))).map (fun x => x.op.created x.reply)).sum = sizes.sum := by
  rw [List.map_map]
  exact congrArg List.sum (List.map_id sizes)

theorem not_refused_of_mem_granted {x : RequestExchange} (h : x ∈ sizes.map (o.call (.ok ()))) :
    x.op.refused x.reply = false := by
  obtain ⟨n, -, rfl⟩ := List.mem_map.mp h
  rfl

/-- The calls of a task are batches, and all of them unless one is refused. -/
theorem Course.exists_asked {t : LaunchTask} (h : Course o t) :
    t.order = o ∧ ∃ sizes : List Nat, t.asked = sizes.map (.createNodes o.template o.tags) ∧
      (∀ n ∈ sizes, 1 ≤ n ∧ n ≤ o.batch) ∧ sizes.sum ≤ o.count ∧
        (t.outstanding? = none → t.failed = false → sizes.sum = o.count) := by
  cases h with
  | @waiting sizes n fuel hsizes hwithin hfuel =>
    refine ⟨rfl, sizes ++ [n], ?_, hsizes, hwithin, fun hnone => nomatch hnone⟩
    rw [asked, ops_granted, List.map_append]
    rfl
  | @refused sizes n e hsizes hwithin =>
    refine ⟨rfl, sizes ++ [n], ?_, hsizes, hwithin, fun _ hfailed => ?_⟩
    · rw [asked, List.map_append, ops_granted, List.map_append]
      exact List.append_nil _
    · simp [failed, LaunchOrder.call, Request.refused] at hfailed
  | @complete sizes hsizes hall =>
    refine ⟨rfl, sizes, ?_, hsizes, hall.le, fun _ _ => hall⟩
    rw [asked, ops_granted]
    exact List.append_nil _

/-- A call that is refused is the last one of a task, which is over then. -/
theorem Course.stops {t : LaunchTask} (h : Course o t) {before after : List RequestExchange}
    {x : RequestExchange} (hsplit : t.answered = before ++ x :: after)
    (hrefused : x.op.refused x.reply = true) : after = [] ∧ t.outstanding? = none := by
  have hgranted : ∀ {sizes : List Nat}, x ∉ sizes.map (o.call (.ok ())) := by
    intro sizes hmem
    rw [not_refused_of_mem_granted hmem] at hrefused
    cases hrefused
  have hmem : x ∈ t.answered := hsplit ▸ List.mem_append_right _ List.mem_cons_self
  cases h with
  | waiting => exact absurd hmem hgranted
  | complete => exact absurd hmem hgranted
  | @refused sizes n e =>
    refine ⟨?_, rfl⟩
    -- behind the refused call there would be a last one, and the calls before that were granted
    rcases List.eq_nil_or_concat after with rfl | ⟨others, last, rfl⟩
    · rfl
    · rw [List.concat_eq_append, ← List.cons_append, ← List.append_assoc] at hsplit
      have hfirst := (List.append_inj' hsplit rfl).1
      exact absurd (hfirst ▸ List.mem_append_right _ List.mem_cons_self) hgranted

/-- A task on its course asks in batches. -/
theorem Course.batched {t : LaunchTask} (h : Course o t) : t.Batched o.batch := by
  obtain ⟨rfl, sizes, hasked, hsizes, hwithin, hall⟩ := h.exists_asked
  refine ⟨?_, ?_, fun _ _ _ => h.stops, ?_⟩
  · rw [hasked]
    intro r hr
    obtain ⟨n, hn, rfl⟩ := List.mem_map.mp hr
    exact ⟨n, rfl, hsizes n hn⟩
  · rw [hasked, sizes_asked]
    exact hwithin
  · rw [hasked, sizes_asked]
    exact hall

/-- A task has no more calls answered than there are nodes in its order. -/
theorem Batched.length_answered_le {batch : Nat} {t : LaunchTask} (h : t.Batched batch) :
    t.answered.length ≤ t.order.count := by
  have hsize : ∀ k ∈ t.asked.map Request.size, 1 ≤ k := by
    intro k hk
    obtain ⟨r, hr, rfl⟩ := List.mem_map.mp hk
    obtain ⟨n, rfl, hpos, -⟩ := h.calls r hr
    exact hpos
  calc t.answered.length
      ≤ (t.asked.map Request.size).length := by simp [asked]
    _ ≤ (t.asked.map Request.size).sum := List.length_le_sum_of_one_le _ hsize
    _ ≤ t.order.count := h.within

/-- A task that is over reports what it has created, and whether a call has failed. -/
theorem Course.report {calls : List RequestExchange} {report : LaunchReport}
    (h : Course o ⟨o, calls, .done report⟩) :
    report.launched = created ⟨o, calls, .done report⟩ ∧
      report.error.isSome = failed ⟨o, calls, .done report⟩ := by
  cases h with
  | @refused sizes n e hsizes hwithin =>
    have hlast : (o.call (.error e) n).op.created (o.call (.error e) n).reply = 0 := rfl
    refine ⟨?_, by simp [failed, LaunchOrder.call, Request.refused]⟩
    rw [created, List.map_append, List.sum_append, created_granted]
    simp [hlast]
  | @complete sizes hsizes hall =>
    refine ⟨(created_granted o sizes).symm, (List.any_eq_false.mpr fun x hx => ?_).symm⟩
    simp [not_refused_of_mem_granted hx]

end LaunchTask

end ClusterScaler
