import ClusterScaler.ControlLoop.Plan
import Mathlib.Data.Int.ConditionallyCompleteOrder
import Mathlib.Data.Prod.Lex
import Mathlib.Order.Compare
import Mathlib.Order.ConditionallyCompleteLattice.Basic
import Mathlib.Order.WithBot

/-!
# The turns of candidates

Doubles are compared by sign, then by exponent and then by significand. So each of them has a rank in
a linear order, and with it a candidate has a turn: the idle ones come before the busy ones, and of
either the less utilized come first. `Candidate.precedes_iff` reduces the comparison of candidates to
that of their turns, where it is total and transitive.
-/

set_option autoImplicit false

namespace ClusterScaler

section Doubles

open Float.Model

/-- Where a number stands by its value. What is not a number gets the rank of zero. -/
def valueRank : UnpackedFloat → ℤ ×ₗ ℤ ×ₗ ℤ
  | .infinity .negative => toLex (-2, toLex (0, 0))
  | .finite .negative m e _ => toLex (-1, toLex (-e, -(m : ℤ)))
  | .zero _ => toLex (0, toLex (0, 0))
  | .finite .positive m e _ => toLex (1, toLex (e, (m : ℤ)))
  | .infinity .positive => toLex (2, toLex (0, 0))
  | .notANumber => toLex (0, toLex (0, 0))

theorem compare_natCast (m n : ℕ) : compare (m : ℤ) (n : ℤ) = compare m n := by
  rcases lt_trichotomy m n with h | h | h
  · rw [compare_lt_iff_lt.mpr h, compare_lt_iff_lt.mpr (Int.ofNat_lt.mpr h)]
  · rw [compare_eq_iff_eq.mpr h, compare_eq_iff_eq.mpr (congrArg _ h)]
  · rw [compare_gt_iff_gt.mpr h, compare_gt_iff_gt.mpr (Int.ofNat_lt.mpr h)]

theorem compare_neg (m n : ℤ) : compare (-m) (-n) = (compare m n).swap := by
  rw [← Std.OrientedCmp.eq_swap]
  rcases lt_trichotomy m n with h | h | h
  · rw [compare_gt_iff_gt.mpr h, compare_gt_iff_gt.mpr (Int.neg_lt_neg h)]
  · rw [compare_eq_iff_eq.mpr h.symm, compare_eq_iff_eq.mpr (congrArg _ h)]
  · rw [compare_lt_iff_lt.mpr h, compare_lt_iff_lt.mpr (Int.neg_lt_neg h)]

/-- Numbers are compared by their ranks. -/
theorem compare_eq_compare_valueRank {a b : UnpackedFloat} (ha : a.isNaN = false)
    (hb : b.isNaN = false) : a.compare b = some (compare (valueRank a) (valueRank b)) := by
  have hlex : ∀ x y : ℤ ×ₗ ℤ ×ₗ ℤ, compare x y = (compare (ofLex x).1 (ofLex y).1).then
      ((compare (ofLex (ofLex x).2).1 (ofLex (ofLex y).2).1).then
        (compare (ofLex (ofLex x).2).2 (ofLex (ofLex y).2).2)) := fun _ _ => rfl
  rw [hlex]
  cases a with
  | notANumber => cases ha
  | infinity s =>
    cases b with
    | notANumber => cases hb
    | infinity t => cases s <;> cases t <;> rfl
    | zero t => cases s <;> rfl
    | finite t n f hn => cases s <;> cases t <;> rfl
  | zero s =>
    cases b with
    | notANumber => cases hb
    | infinity t => cases t <;> rfl
    | zero t => rfl
    | finite t n f hn => cases t <;> rfl
  | finite s m e hm =>
    cases b with
    | notANumber => cases hb
    | infinity t => cases s <;> cases t <;> rfl
    | zero t => cases s <;> rfl
    | finite t n f hn =>
      cases s with
      | positive =>
        cases t with
        | negative => rfl
        | positive =>
          change some ((compare e f).then (compare m n)) =
            some ((compare e f).then (compare (m : ℤ) n))
          rw [compare_natCast]
      | negative =>
        cases t with
        | positive => rfl
        | negative =>
          change some ((compare e f).then (compare m n)).swap =
            some ((compare (-e) (-f)).then (compare (-(m : ℤ)) (-n)))
          rw [compare_neg e f, compare_neg m n, compare_natCast, Ordering.swap_then]

theorem compare_eq_none {a b : UnpackedFloat} (h : a.isNaN = true ∨ b.isNaN = true) :
    a.compare b = none := by
  rcases h with ha | hb
  · cases a with
    | notANumber => rfl
    | infinity s => cases ha
    | zero s => cases ha
    | finite s m e hm => cases ha
  · cases b with
    | notANumber => cases a <;> rfl
    | infinity s => cases hb
    | zero s => cases hb
    | finite s m e hm => cases hb

variable {x y : Float}

/-- The rank of a double. -/
def floatRank (x : Float) : ℤ ×ₗ ℤ ×ₗ ℤ := valueRank x.toModel.unpack

theorem float_le_iff :
    x ≤ y ↔ x.isNaN = false ∧ y.isNaN = false ∧ floatRank x ≤ floatRank y := by
  have hle : x ≤ y ↔ (x.toModel.unpack.compare y.toModel.unpack).any (·.isLE) = true :=
    ⟨of_decide_eq_true, fun h => decide_eq_true h⟩
  rw [hle]
  cases hx : x.isNaN with
  | true =>
    rw [compare_eq_none (.inl hx)]
    simp
  | false =>
    cases hy : y.isNaN with
    | true =>
      rw [compare_eq_none (.inr hy)]
      simp
    | false =>
      rw [compare_eq_compare_valueRank hx hy, Option.any_some, Ordering.isLE_iff_ne_gt]
      exact compare_le_iff_le.trans (by simp [floatRank])

theorem float_lt_iff :
    x < y ↔ x.isNaN = false ∧ y.isNaN = false ∧ floatRank x < floatRank y := by
  have hlt : x < y ↔ (x.toModel.unpack.compare y.toModel.unpack == some .lt) = true :=
    ⟨of_decide_eq_true, fun h => decide_eq_true h⟩
  rw [hlt]
  cases hx : x.isNaN with
  | true =>
    rw [compare_eq_none (.inl hx)]
    simp
  | false =>
    cases hy : y.isNaN with
    | true =>
      rw [compare_eq_none (.inr hy)]
      simp
    | false =>
      rw [compare_eq_compare_valueRank hx hy, beq_iff_eq, Option.some_inj]
      exact compare_lt_iff_lt.trans (by simp [floatRank])

/-- Where a double stands in the total order. Of the zeros the one with a minus sign comes first, and
what is not a number comes last. -/
def floatPlace (x : Float) : WithTop ((ℤ ×ₗ ℤ ×ₗ ℤ) ×ₗ Bool) :=
  if x.isNaN then ⊤ else (toLex (floatRank x, !hasMinus x) : (ℤ ×ₗ ℤ ×ₗ ℤ) ×ₗ Bool)

theorem totalLe_iff : totalLe x y = true ↔ floatPlace x ≤ floatPlace y := by
  have hsplit : totalLe x y = true ↔
      y.isNaN = true ∨ x < y ∨ x ≤ y ∧ (hasMinus x = true ∨ hasMinus y = false) := by
    simp [totalLe, or_assoc]
  have hsign : ((!hasMinus x) ≤ !hasMinus y) ↔ hasMinus x = true ∨ hasMinus y = false := by
    cases hasMinus x <;> cases hasMinus y <;> decide
  rw [hsplit, float_lt_iff, float_le_iff, ← hsign]
  unfold floatPlace
  cases hy : y.isNaN with
  | true => simp
  | false =>
    cases hx : x.isNaN with
    | true => simp
    | false =>
      simp only [Bool.false_eq_true, if_false, WithTop.coe_le_coe, Prod.Lex.toLex_le_toLex,
        le_iff_lt_or_eq (a := floatRank x)]
      tauto

/-- A number comes after none that is larger. -/
theorem float_le_of_totalLe (hy : y.isNaN = false) (h : totalLe x y = true) : x ≤ y := by
  rw [totalLe, Bool.or_eq_true, Bool.or_eq_true, hy] at h
  rcases h with (h | h) | h
  · cases h
  · obtain ⟨hx, hy, hlt⟩ := float_lt_iff.mp (of_decide_eq_true h)
    exact float_le_iff.mpr ⟨hx, hy, hlt.le⟩
  · exact of_decide_eq_true (Bool.and_eq_true_iff.mp h).1

theorem isNaN_eq_false_of_isFinite (h : x.isFinite = true) : x.isNaN = false := by
  have hfinite : x.toModel.unpack.isFinite = true := h
  have hnan : x.isNaN = x.toModel.unpack.isNaN := rfl
  rw [hnan]
  cases hx : x.toModel.unpack with
  | notANumber =>
    rw [hx] at hfinite
    cases hfinite
  | infinity s => rfl
  | zero s => rfl
  | finite s m e hm => rfl

end Doubles

namespace ControlLoop.Candidate

/-- The turn of a candidate. -/
def turn (c : Candidate) : Bool ×ₗ WithTop ((ℤ ×ₗ ℤ ×ₗ ℤ) ×ₗ Bool) :=
  toLex (!c.idle, floatPlace c.utilization)

/-- A candidate precedes another if its turn is no later. -/
theorem precedes_iff {a b : Candidate} : a.precedes b = true ↔ a.turn ≤ b.turn := by
  unfold precedes turn
  rw [Prod.Lex.toLex_le_toLex, ← totalLe_iff]
  cases a.idle <;> cases b.idle <;> simp

end ControlLoop.Candidate

end ClusterScaler
