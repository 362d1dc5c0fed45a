import ClusterScaler.ControlLoop.Tick
import Mathlib.Data.List.Perm.Basic
import Mathlib.Logic.Function.Iterate

/-!
# Launch orders that end in any order

The ends of launch orders are merged as they come: what was launched clears the window of the
breaker, a failure adds to it and may trip it. Clearing and adding do not commute, so the outcome may
depend on the order. Here it is found out when it does not. A breaker is reduced to what matters, its
tally; ends that all do the same to a tally may come in any order, and where there are two kinds of
ends, two orders are given that tell them apart.
-/

set_option autoImplicit false

namespace ClusterScaler

namespace LaunchEnd

/-- The nodes that an order launched. -/
def launched : LaunchEnd → Nat
  | .reported r => r.launched
  | .panicked => 0

/-- Whether an order launched any nodes, which clears the window of a breaker. -/
def clears (e : LaunchEnd) : Bool := e.launched != 0

/-- Whether an order ended with a failure. -/
def fails : LaunchEnd → Bool
  | .reported r => r.error.isSome
  | .panicked => true

end LaunchEnd

/-- What counts of a breaker while launch orders end: whether it has tripped, and how many failures
are in its window. -/
structure Tally where
  tripped : Bool
  count : Nat
  deriving DecidableEq

namespace Tally

/-- The tally after a success. -/
def clear (t : Tally) : Tally := if t.tripped then t else ⟨false, 0⟩

/-- The tally after a failure, of a breaker that trips at `limit` failures. -/
def fail (limit : Nat) (t : Tally) : Tally := ⟨t.tripped || limit ≤ t.count + 1, t.count + 1⟩

/-- The tally after the end of a launch order: first what was launched, then the failure. -/
def merge (limit : Nat) (t : Tally) (e : LaunchEnd) : Tally :=
  let t := if e.clears then t.clear else t
  if e.fails then t.fail limit else t

/-- The ends come to the same tally in any order: the breaker has tripped before, or nothing is
launched, or nothing fails, or every order that launches also fails and the other way round, or one
failure is enough to trip the breaker and none is in its window that a success could clear first. -/
def OrderFree (limit : Nat) (t : Tally) (ends : List LaunchEnd) : Prop :=
  t.tripped = true ∨ (∀ e ∈ ends, e.clears = false) ∨ (∀ e ∈ ends, e.fails = false) ∨
    (∀ e ∈ ends, e.clears = e.fails) ∨
      (limit ≤ 1 ∧ (t.count = 0 ∨ ∀ e ∈ ends, e.fails = true → e.clears = true))

instance (limit : Nat) (t : Tally) (ends : List LaunchEnd) : Decidable (t.OrderFree limit ends) :=
  inferInstanceAs (Decidable (_ ∨ _))

variable {limit : Nat} {t : Tally} {e : LaunchEnd} {ends : List LaunchEnd}

theorem clear_of_tripped (h : t.tripped = true) : t.clear = t := if_pos h

theorem clear_of_untripped (h : t.tripped = false) : t.clear = ⟨false, 0⟩ := by
  simp [clear, h]

theorem clear_clear (t : Tally) : t.clear.clear = t.clear := by
  by_cases h : t.tripped = true
  · rw [clear_of_tripped h, clear_of_tripped h]
  · have huntripped : t.tripped = false := by simpa using h
    rw [clear_of_untripped huntripped]
    rfl

theorem fail_tripped_of_le (h : limit ≤ 1) (t : Tally) : (t.fail limit).tripped = true := by
  have hlimit : limit ≤ t.count + 1 := by omega
  simp [fail, hlimit]

section AnyOrder

variable {σ ι : Type} {step : σ → ι → σ}

/-- Steps that each do nothing or always the same come to where so many of them lead. -/
theorem foldl_eq_iterate {same : σ → σ} {acts : ι → Bool} (Inv : σ → Prop)
    (hsame : ∀ s, Inv s → Inv (same s)) {items : List ι}
    (hstep : ∀ s, Inv s → ∀ x ∈ items, step s x = if acts x then same s else s) {s : σ}
    (hs : Inv s) : items.foldl step s = same^[items.countP acts] s := by
  induction items generalizing s with
  | nil => rfl
  | cons x rest ih =>
    have hrest : ∀ s, Inv s → ∀ y ∈ rest, step s y = if acts y then same s else s :=
      fun s hs y hy => hstep s hs y (List.mem_cons_of_mem _ hy)
    rw [List.foldl_cons, hstep s hs x List.mem_cons_self, List.countP_cons]
    by_cases hacts : acts x = true
    · rw [if_pos hacts, if_pos hacts, ih hrest (hsame s hs), Function.iterate_succ_apply]
    · rw [if_neg hacts, if_neg hacts, ih hrest hs, Nat.add_zero]

end AnyOrder

theorem merge_of_not_clears (h : e.clears = false) (limit : Nat) (t : Tally) :
    t.merge limit e = if e.fails then t.fail limit else t := by
  simp [merge, h]

theorem merge_of_not_fails (h : e.fails = false) (limit : Nat) (t : Tally) :
    t.merge limit e = if e.clears then t.clear else t := by
  simp [merge, h]

/-- Where a success clears nothing, an end counts as its failure only. -/
theorem merge_of_clear_eq (h : t.clear = t) (limit : Nat) (e : LaunchEnd) :
    t.merge limit e = if e.fails then t.fail limit else t := by
  simp [merge, h]

theorem merge_of_clears_eq_fails (h : e.clears = e.fails) (limit : Nat) (t : Tally) :
    t.merge limit e = if e.fails then t.clear.fail limit else t := by
  cases hfails : e.fails with
  | true => simp [merge, h, hfails]
  | false => simp [merge, h, hfails]

/-- With a limit of one, orders that have launched whenever they fail end in any order. -/
theorem merge_comm_of_fails_imp_clears (hlimit : limit ≤ 1) {a b : LaunchEnd}
    (ha : a.fails = true → a.clears = true) (hb : b.fails = true → b.clears = true) (t : Tally) :
    (t.merge limit a).merge limit b = (t.merge limit b).merge limit a := by
  have hkept : ∀ t : Tally, (t.clear.fail limit).clear = t.clear.fail limit :=
    fun t => clear_of_tripped (fail_tripped_of_le hlimit _)
  cases hafails : a.fails with
  | true =>
    have haclears := ha hafails
    cases hbfails : b.fails with
    | true => simp [merge, hafails, haclears, hbfails, hb hbfails]
    | false =>
      cases hbclears : b.clears with
      | true => simp [merge, hafails, haclears, hbfails, hbclears, hkept, clear_clear]
      | false => simp [merge, hafails, haclears, hbfails, hbclears]
  | false =>
    rw [merge_of_not_fails hafails, merge_of_not_fails hafails]
    cases haclears : a.clears with
    | false => rfl
    | true =>
      cases hbfails : b.fails with
      | true => simp [merge, hbfails, hb hbfails, hkept, clear_clear]
      | false =>
        rw [merge_of_not_fails hbfails, merge_of_not_fails hbfails]
        cases b.clears <;> rfl

/-- Where the order is free, every order comes to the same tally. -/
theorem OrderFree.foldl_eq (h : t.OrderFree limit ends) {order order' : List LaunchEnd}
    (horder : order.Perm ends) (horder' : order'.Perm ends) :
    order.foldl (merge limit) t = order'.foldl (merge limit) t := by
  have hmem : ∀ {e : LaunchEnd}, e ∈ order → e ∈ ends := fun he => horder.mem_iff.mp he
  have hmem' : ∀ {e : LaunchEnd}, e ∈ order' → e ∈ ends := fun he => horder'.mem_iff.mp he
  -- ends that do nothing or always the same count alike in both orders
  have halike : ∀ {same : Tally → Tally} {acts : LaunchEnd → Bool} (Inv : Tally → Prop),
      (∀ s, Inv s → Inv (same s)) →
      (∀ s, Inv s → ∀ e ∈ ends, s.merge limit e = if acts e then same s else s) → Inv t →
      order.foldl (merge limit) t = order'.foldl (merge limit) t := by
    intro same acts Inv hsame hstep ht
    rw [foldl_eq_iterate Inv hsame (fun s hs e he => hstep s hs e (hmem he)) ht,
      foldl_eq_iterate Inv hsame (fun s hs e he => hstep s hs e (hmem' he)) ht,
      horder.countP_eq, horder'.countP_eq]
  rcases h with htripped | hclears | hfails | hboth | ⟨hlimit, hnone | hcleared⟩
  · refine halike (fun s => s.tripped = true) (fun s hs => ?_)
      (fun s hs e _ => merge_of_clear_eq (clear_of_tripped hs) limit e) htripped
    simp [fail, hs]
  · exact halike (fun _ => True) (fun _ _ => trivial)
      (fun s _ e he => merge_of_not_clears (hclears e he) limit s) trivial
  · exact halike (fun _ => True) (fun _ _ => trivial)
      (fun s _ e he => merge_of_not_fails (hfails e he) limit s) trivial
  · exact halike (fun _ => True) (fun _ _ => trivial)
      (fun s _ e he => merge_of_clears_eq_fails (hboth e he) limit s) trivial
  · have hkept : ∀ s : Tally, s.tripped = true ∨ s.count = 0 → s.clear = s := by
      rintro ⟨tripped, count⟩ hs
      cases tripped with
      | true => rfl
      | false =>
        obtain rfl : count = 0 := by simpa using hs
        rfl
    exact halike (fun s => s.tripped = true ∨ s.count = 0)
      (fun s _ => .inl (fail_tripped_of_le hlimit s))
      (fun s hs e _ => merge_of_clear_eq (hkept s hs) limit e) (.inr hnone)
  · refine (horder.trans horder'.symm).foldl_eq' (fun a ha b hb s => ?_) t
    exact merge_comm_of_fails_imp_clears hlimit (hcleared a (hmem ha)) (hcleared b (hmem hb)) s

/-- Ends that clear nothing add their failures. -/
theorem count_foldl_of_not_clears (h : ∀ e ∈ ends, e.clears = false) (t : Tally) :
    (ends.foldl (merge limit) t).count = t.count + ends.countP LaunchEnd.fails := by
  induction ends generalizing t with
  | nil => rfl
  | cons e rest ih =>
    rw [List.foldl_cons, ih (fun e' he' => h e' (List.mem_cons_of_mem _ he')),
      merge_of_not_clears (h e List.mem_cons_self), List.countP_cons]
    by_cases hfails : e.fails = true
    · simp only [hfails, if_true, fail]
      omega
    · simp [hfails]

/-- Once the breaker has tripped, failures are only counted. -/
theorem count_foldl_of_tripped (h : t.tripped = true) :
    (ends.foldl (merge limit) t).count = t.count + ends.countP LaunchEnd.fails := by
  induction ends generalizing t with
  | nil => rfl
  | cons e rest ih =>
    rw [List.foldl_cons, merge_of_clear_eq (clear_of_tripped h), List.countP_cons]
    by_cases hfails : e.fails = true
    · rw [if_pos hfails, if_pos hfails, ih (by simp [fail, h])]
      simp only [fail]
      omega
    · rw [if_neg hfails, if_neg hfails, ih h, Nat.add_zero]

theorem count_merge_le (limit : Nat) (t : Tally) (e : LaunchEnd) :
    (t.merge limit e).count ≤ t.count + if e.fails then 1 else 0 := by
  have hclear : (if e.clears then t.clear else t).count ≤ t.count := by
    split
    · unfold clear
      split
      · exact Nat.le_refl _
      · exact Nat.zero_le _
    · exact Nat.le_refl _
  unfold merge
  dsimp only
  split
  · simp only [fail]
    omega
  · omega

theorem count_foldl_le (limit : Nat) (ends : List LaunchEnd) (t : Tally) :
    (ends.foldl (merge limit) t).count ≤ t.count + ends.countP LaunchEnd.fails := by
  induction ends generalizing t with
  | nil => exact Nat.le_refl _
  | cons e rest ih =>
    have hrest := ih (t.merge limit e)
    have hfirst := count_merge_le limit t e
    rw [List.foldl_cons, List.countP_cons]
    omega

/-- An order that has launched forgets the failures before it. -/
theorem merge_of_clears (h : e.clears = true) (ht : t.tripped = false) :
    t.merge limit e = merge limit ⟨false, 0⟩ e := by
  simp only [merge, h, if_true, clear_of_untripped ht]
  rfl

/-- A failure counts once more if it comes after the orders that launch than if it comes before
them, unless it trips the breaker and there was no failure to clear. -/
theorem count_ne_of_failure_first {d : LaunchEnd} {launching others : List LaunchEnd}
    (ht : t.tripped = false) (hd : d.fails = true) (hd' : d.clears = false)
    (hlaunching : ∀ e ∈ launching, e.clears = true) (hsome : launching ≠ [])
    (hothers : ∀ e ∈ others, e.clears = false) (hlimit : 2 ≤ limit ∨ t.count ≠ 0) :
    ((launching ++ d :: others).foldl (merge limit) t).count ≠
      ((d :: (launching ++ others)).foldl (merge limit) t).count := by
  have hfailed : ∀ s : Tally, s.merge limit d = s.fail limit := by
    intro s
    rw [merge_of_not_clears hd', if_pos hd]
  rw [List.foldl_append, List.foldl_cons, List.foldl_cons, List.foldl_append,
    count_foldl_of_not_clears hothers, count_foldl_of_not_clears hothers, hfailed, hfailed]
  change (launching.foldl (merge limit) t).count + 1 + _ ≠ _
  obtain ⟨c, rest, rfl⟩ := List.exists_cons_of_ne_nil hsome
  have hc := hlaunching c List.mem_cons_self
  cases htripped : (t.fail limit).tripped with
  | false =>
    -- the first order that launches forgets the failure
    rw [List.foldl_cons, List.foldl_cons, merge_of_clears hc ht, merge_of_clears hc htripped]
    omega
  | true =>
    have hfew : ((c :: rest).foldl (merge limit) t).count ≤ (c :: rest).countP LaunchEnd.fails := by
      have hle := count_foldl_le limit (c :: rest) ⟨false, 0⟩
      rw [List.foldl_cons, merge_of_clears hc ht]
      simpa using hle
    have hbefore : t.count ≠ 0 := by
      rcases hlimit with htwo | hcount
      · intro hzero
        simp only [fail, ht, hzero, Bool.false_or, decide_eq_true_eq] at htripped
        omega
      · exact hcount
    rw [count_foldl_of_tripped htripped]
    simp only [fail]
    omega

/-- Orders that have launched whenever they fail never trip a breaker that takes two failures. -/
theorem tripped_foldl_of_fails_imp_clears (hlimit : 2 ≤ limit) (ht : t.tripped = false)
    (h : ∀ e ∈ ends, e.fails = true → e.clears = true) :
    (ends.foldl (merge limit) t).tripped = false := by
  induction ends generalizing t with
  | nil => exact ht
  | cons e rest ih =>
    refine ih ?_ fun e' he' => h e' (List.mem_cons_of_mem _ he')
    cases hfails : e.fails with
    | true =>
      have hclears := h e List.mem_cons_self hfails
      rw [merge_of_clears hclears ht]
      simp only [merge, hclears, hfails, if_true, clear, fail]
      simp
      omega
    | false =>
      rw [merge_of_not_fails hfails]
      split
      · rw [clear_of_untripped ht]
      · exact ht

/-- If an order fails without having launched and another one launches, two orders of the ends come
to different counts. -/
theorem exists_count_ne {c d : LaunchEnd} (ht : t.tripped = false) (hc : c ∈ ends)
    (hclears : c.clears = true) (hd : d ∈ ends) (hdfails : d.fails = true)
    (hdclears : d.clears = false) (hlimit : 2 ≤ limit ∨ t.count ≠ 0) :
    ∃ order order' : List LaunchEnd, order.Perm ends ∧ order'.Perm ends ∧
      (order.foldl (merge limit) t).count ≠ (order'.foldl (merge limit) t).count := by
  obtain ⟨front, back, rfl⟩ := List.append_of_mem hd
  have hrest : (front ++ d :: back).Perm (d :: (front ++ back)) := List.perm_middle
  have hsplit := List.filter_append_perm LaunchEnd.clears (front ++ back)
  have hc' : c ∈ front ++ back := by
    rcases List.mem_cons.mp (hrest.mem_iff.mp hc) with rfl | hc'
    · rw [hclears] at hdclears
      cases hdclears
    · exact hc'
  refine ⟨(front ++ back).filter LaunchEnd.clears ++ d :: (front ++ back).filter (!·.clears),
    d :: ((front ++ back).filter LaunchEnd.clears ++ (front ++ back).filter (!·.clears)),
    (List.perm_middle.trans (hsplit.cons d)).trans hrest.symm, (hsplit.cons d).trans hrest.symm, ?_⟩
  refine count_ne_of_failure_first ht hdfails hdclears (fun e he => (List.mem_filter.mp he).2)
    (List.ne_nil_of_mem (List.mem_filter.mpr ⟨hc', hclears⟩)) (fun e he => ?_) hlimit
  simpa using (List.mem_filter.mp he).2

/-- If every order that fails has launched, the order that ends last decides. -/
theorem exists_count_eq_of_last (hlimit : 2 ≤ limit) (ht : t.tripped = false)
    (h : ∀ e ∈ ends, e.fails = true → e.clears = true) (he : e ∈ ends)
    (hclears : e.clears = true) :
    ∃ order : List LaunchEnd, order.Perm ends ∧
      (order.foldl (merge limit) t).count = if e.fails then 1 else 0 := by
  obtain ⟨front, back, rfl⟩ := List.append_of_mem he
  have hrest : (front ++ e :: back).Perm (e :: (front ++ back)) := List.perm_middle
  have hbefore : ((front ++ back).foldl (merge limit) t).tripped = false :=
    tripped_foldl_of_fails_imp_clears hlimit ht fun e' he' =>
      h e' (hrest.mem_iff.mpr (List.mem_cons_of_mem _ he'))
  refine ⟨front ++ back ++ [e], (List.perm_append_singleton e _).trans hrest.symm, ?_⟩
  rw [List.foldl_append, List.foldl_cons, List.foldl_nil, merge_of_clears hclears hbefore]
  cases hfails : e.fails <;> simp [merge, hclears, hfails, clear, fail]

/-- The order of the ends is free exactly if every order comes to the same tally. -/
theorem orderFree_iff (limit : Nat) (t : Tally) (ends : List LaunchEnd) :
    t.OrderFree limit ends ↔ ∀ order order' : List LaunchEnd, order.Perm ends → order'.Perm ends →
      order.foldl (merge limit) t = order'.foldl (merge limit) t := by
  constructor
  · exact fun h order order' horder horder' => h.foldl_eq horder horder'
  · intro hsame
    by_contra hfree
    simp only [OrderFree, not_or, not_and, not_forall, Bool.not_eq_true, Bool.not_eq_false,
      exists_prop] at hfree
    obtain ⟨ht, ⟨c, hc, hclears⟩, ⟨f, hf, hffails⟩, ⟨x, hx, hdiffer⟩, hlimit⟩ := hfree
    by_cases hpure : ∃ d ∈ ends, d.fails = true ∧ d.clears = false
    · obtain ⟨d, hd, hdfails, hdclears⟩ := hpure
      have hcounts : 2 ≤ limit ∨ t.count ≠ 0 := by
        by_cases htwo : 2 ≤ limit
        · exact .inl htwo
        · exact .inr (hlimit (by omega)).1
      obtain ⟨order, order', horder, horder', hne⟩ :=
        exists_count_ne ht hc hclears hd hdfails hdclears hcounts
      exact hne (congrArg count (hsame order order' horder horder'))
    · have hcleared : ∀ e ∈ ends, e.fails = true → e.clears = true := by
        intro e he hfails
        by_contra hkept
        exact hpure ⟨e, he, hfails, by simpa using hkept⟩
      have htwo : 2 ≤ limit := by
        by_contra hone
        obtain ⟨-, g, hg, hgfails, hgclears⟩ := hlimit (by omega)
        rw [hcleared g hg hgfails] at hgclears
        cases hgclears
      have hxfails : x.fails = false := by
        by_contra hfails
        rw [Bool.not_eq_false] at hfails
        exact hdiffer ((hcleared x hx hfails).trans hfails.symm)
      have hxclears : x.clears = true := by
        by_contra hkept
        rw [Bool.not_eq_true] at hkept
        exact hdiffer (hkept.trans hxfails.symm)
      -- the end that only launches leaves no failure if it comes last, the other one leaves one
      obtain ⟨order, horder, hnone⟩ := exists_count_eq_of_last htwo ht hcleared hx hxclears
      obtain ⟨order', horder', hone⟩ :=
        exists_count_eq_of_last htwo ht hcleared hf (hcleared f hf hffails)
      rw [hsame order order' horder horder', hone, hffails, hxfails] at hnone
      cases hnone

end Tally

end ClusterScaler
