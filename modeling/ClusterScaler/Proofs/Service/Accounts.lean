import ClusterScaler.Proofs.Service.Launches
import ClusterScaler.Proofs.Tick.Success
import Mathlib.Algebra.BigOperators.Group.List.Basic
import Mathlib.Algebra.GroupWithZero.Nat

/-!
# Held and owed nodes together

Through the questions of a tick, and whatever goes on beside it, the nodes that are held and those
that launch orders still owe change by what the tick orders. The count is kept exactly as long as
nothing is terminated and every order ends well, and from above in any case.
-/

set_option autoImplicit false

namespace ClusterScaler

open Program InMemory

/-- What may happen to the nodes besides: they start to run and their tags of progress are written,
but none comes or goes. -/
def tending (p p' : InMemory) : Prop := p.Tended p' ∧ p'.made = p.made

theorem numbered_of_tending (p p' : InMemory) (h : tending p p') (hp : p.Numbered) : p'.Numbered :=
  hp.of_tended h.1 h.2

/-- A way to compare amounts that sums respect. -/
structure Comparison (R : Nat → Nat → Prop) : Prop where
  refl : ∀ n, R n n
  trans : ∀ {k m n}, R k m → R m n → R k n
  add : ∀ {m n}, R m n → ∀ k, R (m + k) (n + k)

theorem comparison_eq : Comparison Eq :=
  ⟨fun _ => rfl, fun h h' => h.trans h', fun h k => congrArg (· + k) h⟩

theorem comparison_le : Comparison LE.le :=
  ⟨Nat.le_refl, fun h h' => Nat.le_trans h h', fun h k => Nat.add_le_add_right h k⟩

variable {R : Nat → Nat → Prop} {f : NodeId → Node → Bool} {T : Tags → Prop} {c : Tags → Bool}

theorem Comparison.add_add (hR : Comparison R) {m n m' n' : Nat} (h : R m n) (h' : R m' n') :
    R (m + m') (n + n') := by
  have hright := hR.add h' n
  rw [Nat.add_comm m' n, Nat.add_comm n' n] at hright
  exact hR.trans (hR.add h m') hright

/-- How many of the owed nodes count. -/
def owed (c : Tags → Bool) (debts : List (Tags × Nat)) : Nat :=
  (debts.map (fun d => if c d.1 then d.2 else 0)).sum

theorem owed_cons (c : Tags → Bool) (tags : Tags) (k : Nat) (debts : List (Tags × Nat)) :
    owed c ((tags, k) :: debts) = (if c tags then k else 0) + owed c debts :=
  List.sum_cons

theorem owed_append (c : Tags → Bool) (debts debts' : List (Tags × Nat)) :
    owed c (debts ++ debts') = owed c debts + owed c debts' := by
  unfold owed
  rw [List.map_append, List.sum_append]

theorem owed_perm {debts debts' : List (Tags × Nat)} (h : debts.Perm debts') :
    owed c debts = owed c debts' :=
  (h.map _).sum_eq

/-- The debt that a launch order starts with. -/
def LaunchOrder.debt (o : LaunchOrder) : Tags × Nat := (o.tags, o.count)

/-- A count that tending to nodes keeps, up to the comparison. New nodes, whose tags are as `T` asks,
enter it by their tags. -/
structure Measured (R : Nat → Nat → Prop) (f : NodeId → Node → Bool) (T : Tags → Prop)
    (c : Tags → Bool) : Prop where
  tended : ∀ {p p' : InMemory}, p.Tended p' → R (p'.holds f) (p.holds f)
  made : ∀ tags phase, T tags → phase ≠ .terminated →
    ∃ new, (∀ id address, f id ⟨phase, tags, address⟩ = new) ∧
      ∀ n, R (if new then n else 0) (if c tags then n else 0)

/-- The nodes that are held and owed, as they are counted, compare with an amount. -/
structure Accounts (R : Nat → Nat → Prop) (f : NodeId → Node → Bool) (T : Tags → Prop)
    (c : Tags → Bool) (k : Nat) (s : Service) : Prop where
  sound : s.Sound
  balanced : ∃ debts, List.Forall₂ (fun rest (d : Tags × Nat) => Owes d.1 d.2 rest) s.launches debts ∧
    (∀ d ∈ debts, T d.1) ∧ R (s.provider.holds f + owed c debts) k

namespace Accounts

variable {k : Nat} {s s' : Service}

/-- Where nothing is owed, the held nodes balance alone. -/
theorem of_no_launches (hR : Comparison R) (hsound : s.Sound) (hnone : s.launches = []) :
    Accounts R f T c (s.provider.holds f) s := by
  refine ⟨hsound, [], ?_, fun d hd => absurd hd List.not_mem_nil, hR.refl _⟩
  rw [hnone]
  exact .nil

theorem holds_of_no_launches (h : Accounts R f T c k s) (hnone : s.launches = []) :
    R (s.provider.holds f) k := by
  obtain ⟨debts, howes, -, hR⟩ := h.balanced
  rw [hnone] at howes
  cases howes
  exact hR

theorem holds_le (h : Accounts LE.le f T c k s) : s.provider.holds f ≤ k := by
  obtain ⟨debts, -, -, hle⟩ := h.balanced
  exact Nat.le_trans (Nat.le_add_right _ _) hle

/-- Tending to the nodes keeps the accounts. -/
theorem tended (hR : Comparison R) (hf : Measured R f T c) (h : Accounts R f T c k s)
    (hsound : s'.Sound) (hlaunches : s'.launches = s.launches)
    (htended : s.provider.Tended s'.provider) : Accounts R f T c k s' := by
  obtain ⟨debts, howes, htags, hbalance⟩ := h.balanced
  refine ⟨hsound, debts, hlaunches.symm ▸ howes, htags, ?_⟩
  exact hR.trans (hR.add (hf.tended htended) _) hbalance

/-- What one answer to a launch order adds to the held nodes it takes from the owed ones. -/
theorem launched (hR : Comparison R) (hf : Measured R f T c) (h : Accounts R f T c k s) {r : Request}
    {next : r.Reply → Routine LaunchReport} {others : List (Routine LaunchReport)}
    {reply : r.Reply} {p : InMemory} (hperm : s.launches.Perm (.ask r next :: others))
    (hreplies : s.provider.Replies r reply p)
    (hsound : Service.Sound { s with provider := p, launches := next reply :: others }) :
    Accounts R f T c k { s with provider := p, launches := next reply :: others } := by
  obtain ⟨debts, howes, hadmitted, hbalance⟩ := h.balanced
  obtain ⟨debts', howes', hdebts⟩ := List.perm_comp_forall₂ hperm.symm howes
  cases howes' with
  | @cons _ d _ ds hfirst hothers =>
    obtain ⟨tags, owing⟩ := d
    have htags : ∀ d ∈ (tags, owing) :: ds, T d.1 := fun d hd => hadmitted d (hdebts.mem_iff.mp hd)
    obtain ⟨⟨template, n, rfl, hn⟩, hrest⟩ := hfirst.answered reply
    refine ⟨hsound, (tags, owing - Request.created _ reply) :: ds, .cons hrest hothers, ?_, ?_⟩
    · intro d hd
      rcases List.mem_cons.mp hd with rfl | hd
      · exact htags (tags, owing) List.mem_cons_self
      · exact htags d (List.mem_cons_of_mem _ hd)
    rw [← owed_perm hdebts, owed_cons] at hbalance
    refine hR.trans ?_ hbalance
    rw [owed_cons]
    rcases hreplies.createNodes with ⟨rfl, q, phase, hnodes, hmade, hphase, rfl⟩ | ⟨⟨e, rfl⟩, hnodes, -⟩
    · obtain ⟨new, hnew, hcounts⟩ := hf.made tags phase (htags _ List.mem_cons_self) hphase
      dsimp only
      rw [holds_addNodes (h.sound.numbered.of_nodes hnodes hmade) tags phase hnew n]
      have hold : R (q.holds f) (s.provider.holds f) := hf.tended (.of_nodes hnodes)
      have hsplit : (if c tags then owing else 0) =
          (if c tags then n else 0) +
            if c tags then owing - Request.created (.createNodes template tags n) (.ok ()) else 0 := by
        have hcreated : Request.created (.createNodes template tags n) (.ok ()) = n := rfl
        rw [hcreated]
        split <;> omega
      rw [hsplit, Nat.add_assoc (if c tags then n else 0), ← Nat.add_assoc (s.provider.holds f)]
      exact hR.add (hR.add_add hold (hcounts n)) _
    · exact hR.add (hf.tended (.of_nodes hnodes)) _

/-- What goes on beside a tick keeps the accounts. -/
theorem step (hR : Comparison R) (hf : Measured R f T c) (h : Accounts R f T c k s)
    (hstep : Service.Step tending s s') : Accounts R f T c k s' := by
  have hsound := h.sound.step numbered_of_tending hstep
  cases hstep with
  | outside hp => exact h.tended hR hf hsound rfl hp.1
  | launch hperm hreplies => exact h.launched hR hf hperm hreplies hsound
  | @update u r next others reply p hperm hreplies =>
    obtain ⟨hprovider, hlaunches⟩ :=
      Service.provider_goOn { s with provider := p } u others (next reply)
    refine h.tended hR hf hsound hlaunches ?_
    rw [hprovider]
    exact (h.sound.tended hperm hreplies).1
  | @timeout u rest others hperm =>
    obtain ⟨hprovider, hlaunches⟩ :=
      s.provider_goOn u others (u.conclude (.error (.timeout u.timeout)))
    refine h.tended hR hf hsound hlaunches ?_
    rw [hprovider]
    exact .refl _
  | panic hperm => exact h.tended hR hf hsound rfl (.refl _)

theorem steps (hR : Comparison R) (hf : Measured R f T c) (h : Accounts R f T c k s)
    (hsteps : Service.Steps tending s s') : Accounts R f T c k s' := by
  induction hsteps with
  | refl => exact h
  | tail _ hstep ih => exact ih.step hR hf hstep

/-- Terminating nodes does not raise a count. -/
def Shrinks (R : Nat → Nat → Prop) (f : NodeId → Node → Bool) : Prop :=
  ∀ (ids : List NodeId) (p : InMemory), R ((ids.foldl terminateLive p).holds f) (p.holds f)

/-- A question of a tick, with its answer, that does not disturb a count: it creates nothing itself,
and if it terminates nodes or an order does not end well, the comparison allows for it. -/
def Undisturbing (R : Nat → Nat → Prop) (f : NodeId → Node → Bool) (T : Tags → Prop) :
    (q : Question) → q.Reply → Prop
  | .request r, _ => r.Tidy ∧ r.createsNodes = false ∧
      (r.terminates = true → Shrinks R f)
  | .awaitLaunch, d => (Question.awaitLaunch).Succeeded d ∨ ∀ m n, R m (n + m)
  | .launch o, _ => 0 < o.batch ∧ T o.tags
  | .dispatch _, _ | .abandon _, _ => True

/-- A request of the tick itself keeps the accounts. -/
theorem request (hR : Comparison R) (hf : Measured R f T c) (h : Accounts R f T c k s) {r : Request}
    {reply : r.Reply} {p : InMemory} (hr : r.Tidy) (hcreates : r.createsNodes = false)
    (hterminates : r.terminates = true → Shrinks R f)
    (hreplies : s.provider.Replies r reply p) :
    Accounts R f T c k { s with provider := p, ends := [] } := by
  have hsound : Service.Sound { s with provider := p, ends := [] } :=
    ⟨(hreplies.onward hr h.sound.numbered).2.1, h.sound.updaters, h.sound.launches⟩
  -- a termination takes nodes out of the count, everything else tends to them
  have hterminated : ∀ {ids : List NodeId} {reply : ProviderResult Unit},
      s.provider.Replies (.terminateNodes ids) reply p → Shrinks R f →
        Accounts R f T c k { s with provider := p, ends := [] } := by
    intro ids reply hreplies hshrinks
    obtain ⟨debts, howes, htags, hbalance⟩ := h.balanced
    rcases hreplies.terminateNodes with ⟨-, q, hnodes, -, rfl⟩ | ⟨-, hnodes, -⟩
    · refine ⟨hsound, debts, howes, htags, hR.trans (hR.add ?_ _) hbalance⟩
      exact hR.trans (hshrinks ids q) (hf.tended (.of_nodes hnodes))
    · exact h.tended hR hf hsound rfl (.of_nodes hnodes)
  cases r with
  | terminateNode node => exact hterminated hreplies.terminateNode (hterminates rfl)
  | terminateNodes ids => exact hterminated hreplies (hterminates rfl)
  | createNodes template tags count => cases hcreates
  | _ => exact h.tended hR hf hsound rfl (hreplies.tended hr rfl rfl).1

/-- An undisturbing question changes the accounts by what it orders. -/
theorem exchange (hR : Comparison R) (hf : Measured R f T c) (h : Accounts R f T c k s) {q : Question}
    {reply : q.Reply} (hq : Undisturbing R f T q reply) (hserved : q.ServedBy tending reply s s') :
    Accounts R f T c (k + owed c (q.order?.toList.map LaunchOrder.debt)) s' := by
  cases q with
  | request r =>
    obtain ⟨m, p, hsteps, hreplies, -, rfl⟩ := hserved
    exact (h.steps hR hf hsteps).request hR hf hq.1 hq.2.1 hq.2.2 hreplies
  | dispatch u =>
    obtain rfl := hserved
    refine h.tended hR hf ⟨h.sound.numbered, ?_, h.sound.launches⟩ rfl (.refl _)
    intro x hx
    rcases List.mem_cons.mp hx with rfl | hx
    · exact Update.onItsWay_routine
    · exact h.sound.updaters x hx
  | abandon nodes =>
    obtain rfl := hserved
    exact h.tended hR hf ⟨h.sound.numbered,
      fun x hx => h.sound.updaters x (List.mem_of_mem_filter hx), h.sound.launches⟩ rfl (.refl _)
  | launch o =>
    obtain rfl := hserved
    obtain ⟨debts, howes, htags, hbalance⟩ := h.balanced
    have howed := owes_routine hq.1
    refine ⟨⟨h.sound.numbered, h.sound.updaters, ?_⟩, o.debt :: debts, .cons howed howes, ?_, ?_⟩
    · intro rest hrest
      rcases List.mem_cons.mp hrest with rfl | hrest
      · exact ⟨_, _, howed⟩
      · exact h.sound.launches rest hrest
    · intro d hd
      rcases List.mem_cons.mp hd with rfl | hd
      · exact hq.2
      · exact htags d hd
    · have hlast : owed c ((Question.launch o).order?.toList.map LaunchOrder.debt) =
          if c o.tags then o.count else 0 := owed_cons c o.tags o.count []
      have hadded := hR.add hbalance (if c o.tags then o.count else 0)
      rw [hlast, LaunchOrder.debt, owed_cons, Nat.add_comm (if c o.tags then o.count else 0),
        ← Nat.add_assoc]
      exact hadded
  | awaitLaunch =>
    obtain ⟨m, rest, others, hsteps, hperm, hof, -, rfl⟩ := hserved
    have hm := h.steps hR hf hsteps
    obtain ⟨debts, howes, htags, hbalance⟩ := hm.balanced
    obtain ⟨debts', howes', hdebts⟩ := List.perm_comp_forall₂ hperm.symm howes
    cases howes' with
    | @cons _ d _ ds hfirst hothers =>
      obtain ⟨tags, owing⟩ := d
      refine ⟨⟨hm.sound.numbered, hm.sound.updaters, fun rest hrest =>
        hm.sound.launches rest (hperm.mem_iff.mpr (List.mem_cons_of_mem _ hrest))⟩, ds, hothers,
        fun d hd => htags d (hdebts.mem_iff.mp (List.mem_cons_of_mem _ hd)), ?_⟩
      rw [← owed_perm hdebts, owed_cons] at hbalance
      refine hR.trans ?_ hbalance
      rcases hq with ⟨report, hreport, herror⟩ | hforgives
      · -- an order that ends well owes nothing any longer
        rw [hreport] at hof
        obtain rfl : rest = .done report := hof
        have hpaid : owing = 0 := hfirst herror
        rw [hpaid, ite_self, Nat.zero_add]
        exact hR.refl _
      · rw [Nat.add_left_comm]
        exact hforgives _ _

/-- Through undisturbing questions the accounts change by what is ordered. -/
theorem follows (hR : Comparison R) (hf : Measured R f T c) (h : Accounts R f T c k s)
    {trace : List TickExchange} (htrace : ∀ x ∈ trace, Undisturbing R f T x.op.question x.reply)
    (hfollows : Follows (Service.protocol tending) s trace s') :
    Accounts R f T c (k + owed c ((ordersOf trace).map LaunchOrder.debt)) s' := by
  induction hfollows generalizing k with
  | nil s => exact h
  | @cons s s₁ s₂ x rest hstep _ ih =>
    have hx := h.exchange hR hf (htrace x List.mem_cons_self) hstep
    have hrest := ih hx (fun y hy => htrace y (List.mem_cons_of_mem _ hy))
    have hsplit : ordersOf (x :: rest) = x.op.question.order?.toList ++ ordersOf rest := by
      unfold ordersOf
      rw [List.filterMap_cons]
      cases x.op.question.order? <;> rfl
    rw [hsplit, List.map_append, owed_append, ← Nat.add_assoc]
    exact hrest

end Accounts

end ClusterScaler
