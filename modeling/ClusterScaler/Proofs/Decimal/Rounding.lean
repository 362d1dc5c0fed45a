import ClusterScaler.Decimal.Shortest
import Mathlib.Algebra.Order.Field.Power
import Mathlib.Algebra.Order.Ring.Rat
import Mathlib.Tactic.FieldSimp
import Mathlib.Tactic.Linarith
import Mathlib.Tactic.LinearCombination
import Mathlib.Tactic.NormNum
import Mathlib.Tactic.Positivity
import Mathlib.Tactic.Ring

/-!
# The reals that round to a double

A double with the significand `m` and the exponent `q` is `m * 2 ^ q`, and what rounds to it lies in an
interval around it. The intervals of two doubles have nothing in common (`eq_of_holds`). One of the
first seventeen decimal grids has a point in the interval (`isSome_hit?`), so the decimal that is chosen
for a double lies in its interval (`holds_shortest`) and in no other.
-/

set_option autoImplicit false

namespace ClusterScaler.Decimal

/-- The number that a decimal denotes. -/
def Digits.value (d : Digits) : ℚ := d.coefficient * 10 ^ d.exponent

/-- A number lies in the interval, which is measured in quarters of the last binary place. -/
def Rounding.Holds (r : Rounding) (q : ℤ) (x : ℚ) : Prop :=
  if r.closed then r.low * 2 ^ (q - 2) ≤ x ∧ x ≤ r.high * 2 ^ (q - 2)
  else r.low * 2 ^ (q - 2) < x ∧ x < r.high * 2 ^ (q - 2)

/-- The significand and the exponent of a finite double: the significand has 53 bits unless the
exponent is the least one. -/
structure Normal (m : ℕ) (q : ℤ) : Prop where
  lt : m < 2 ^ 53
  exponent_ge : -1074 ≤ q
  exponent_le : q ≤ 971
  exponent_eq : m < 2 ^ 52 → q = -1074

section Intervals

variable {m m' : ℕ} {q q' : ℤ} {x : ℚ} {r : Rounding}

theorem Rounding.holds_of_lt (hlow : r.low * 2 ^ (q - 2) < x) (hhigh : x < r.high * 2 ^ (q - 2)) :
    r.Holds q x := by
  unfold Rounding.Holds
  split
  · exact ⟨hlow.le, hhigh.le⟩
  · exact ⟨hlow, hhigh⟩

theorem Rounding.Holds.bounds (h : r.Holds q x) :
    r.low * 2 ^ (q - 2) ≤ x ∧ x ≤ r.high * 2 ^ (q - 2) := by
  unfold Rounding.Holds at h
  split at h
  · exact h
  · exact ⟨h.1.le, h.2.le⟩

theorem Rounding.Holds.lt (h : r.Holds q x) (hopen : r.closed = false) :
    r.low * 2 ^ (q - 2) < x ∧ x < r.high * 2 ^ (q - 2) := by
  unfold Rounding.Holds at h
  rwa [if_neg (by simp [hopen])] at h

/-- The lower end of an interval is half a place below the double, and a quarter of one below a power
of two. -/
theorem low_of (hm : 0 < m) : ((Rounding.of m q).low : ℚ) =
    4 * m - if m = 2 ^ 52 ∧ -1074 < q then 1 else 2 := by
  have hiff : (m == Nat.pow 2 52 && decide (q > -1074)) = true ↔ m = 2 ^ 52 ∧ -1074 < q := by
    rw [Bool.and_eq_true, beq_iff_eq, decide_eq_true_iff]
    rfl
  unfold Rounding.of
  simp only [hiff]
  split <;> rw [Nat.cast_sub (by omega)] <;> push_cast <;> rfl

theorem low_ge (hm : 0 < m) : (4 * m - 2 : ℚ) ≤ (Rounding.of m q).low := by
  rw [low_of hm]
  split <;> linarith

theorem high_of : ((Rounding.of m q).high : ℚ) = 4 * m + 2 := by
  unfold Rounding.of
  push_cast
  rfl

theorem closed_of : (Rounding.of m q).closed = (m % 2 == 0) := rfl

/-- The interval of an odd significand is open. -/
theorem Rounding.Holds.lt_of_odd (h : (Rounding.of m q).Holds q x) (hodd : m % 2 = 1) :
    ((Rounding.of m q).low : ℚ) * 2 ^ (q - 2) < x ∧ x < (4 * m + 2) * 2 ^ (q - 2) := by
  rw [← high_of (q := q)]
  exact h.lt (by rw [closed_of, hodd]; rfl)

theorem Rounding.Holds.pos (h : (Rounding.of m q).Holds q x) (hm : 0 < m) : 0 < x := by
  have hlow : (0 : ℚ) < (Rounding.of m q).low := by
    have hone : (1 : ℚ) ≤ m := mod_cast hm
    linarith [low_ge (q := q) hm]
  have hplace : (0 : ℚ) < 2 ^ (q - 2) := by positivity
  exact (mul_pos hlow hplace).trans_le h.bounds.1

/-- With one exponent the intervals of neighbours meet in one point, which belongs to the even one. -/
theorem le_of_holds (hm' : 0 < m') (h : (Rounding.of m q).Holds q x)
    (h' : (Rounding.of m' q).Holds q x) : m' ≤ m := by
  by_contra! hlt
  have hplace : (0 : ℚ) < 2 ^ (q - 2) := by positivity
  have hhigh := h.bounds.2
  have hlow := (mul_le_mul_of_nonneg_right (low_ge (q := q) hm') hplace.le).trans h'.bounds.1
  rw [high_of] at hhigh
  have hnext : m' = m + 1 := by
    have hends : (4 * m' - 2 : ℚ) ≤ 4 * m + 2 := le_of_mul_le_mul_right (hlow.trans hhigh) hplace
    have hle : (m' : ℚ) ≤ m + 1 := by linarith
    have : m' ≤ m + 1 := mod_cast hle
    omega
  have hsame : (4 * m' - 2 : ℚ) = 4 * m + 2 := by
    rw [hnext]
    push_cast
    ring
  rcases Nat.mod_two_eq_zero_or_one m with heven | hodd
  · have hstrict := (h'.lt_of_odd (by omega)).1
    have := mul_le_mul_of_nonneg_right (low_ge (q := q) hm') hplace.le
    rw [hsame] at this
    linarith
  · have hstrict := (h.lt_of_odd hodd).2
    rw [hsame] at hlow
    linarith

/-- A larger exponent starts where the significands with a smaller one have come to their end. -/
theorem exponent_le_of_holds (hn : Normal m q) (hn' : Normal m' q') (h : (Rounding.of m q).Holds q x)
    (h' : (Rounding.of m' q').Holds q' x) : q' ≤ q := by
  by_contra! hlt
  have hm' : 2 ^ 52 ≤ m' := by
    by_contra! hsmall
    have := hn'.exponent_eq hsmall
    have := hn.exponent_ge
    omega
  have hplace : (0 : ℚ) < 2 ^ (q - 2) := by positivity
  have hdouble : (2 : ℚ) * 2 ^ (q - 2) ≤ 2 ^ (q' - 2) := by
    rw [← zpow_one_add₀ two_ne_zero]
    exact zpow_le_zpow_right₀ one_le_two (by omega)
  have hlow : (2 ^ 54 - 1 : ℚ) ≤ (Rounding.of m' q').low := by
    rw [low_of (by omega)]
    split
    · next h =>
      rw [h.1]
      norm_num
    · next h =>
      have hnext : (2 ^ 52 + 1 : ℚ) ≤ m' := by
        have hne : m' ≠ 2 ^ 52 := fun heq => h ⟨heq, by have := hn.exponent_ge; omega⟩
        exact mod_cast (by omega : 2 ^ 52 + 1 ≤ m')
      linarith
  have hends : (2 ^ 55 - 2 : ℚ) * 2 ^ (q - 2) ≤ x := calc
    (2 ^ 55 - 2 : ℚ) * 2 ^ (q - 2) = (2 ^ 54 - 1) * (2 * 2 ^ (q - 2)) := by ring
    _ ≤ (Rounding.of m' q').low * 2 ^ (q' - 2) :=
      mul_le_mul hlow hdouble (by positivity) (by positivity)
    _ ≤ x := h'.bounds.1
  have hlast : m = 2 ^ 53 - 1 := by
    have hhigh := hends.trans h.bounds.2
    rw [high_of] at hhigh
    have hle : (2 ^ 53 : ℚ) ≤ m + 1 := by linarith [le_of_mul_le_mul_right hhigh hplace]
    have : 2 ^ 53 ≤ m + 1 := mod_cast hle
    have := hn.lt
    omega
  have hstrict := (h.lt_of_odd (by omega)).2
  rw [hlast] at hstrict
  norm_num at hstrict hends
  linarith

/-- A number rounds to one double at most. -/
theorem eq_of_holds (hn : Normal m q) (hn' : Normal m' q') (hm : 0 < m) (hm' : 0 < m')
    (h : (Rounding.of m q).Holds q x) (h' : (Rounding.of m' q').Holds q' x) : m = m' ∧ q = q' := by
  obtain rfl : q = q' :=
    le_antisymm (exponent_le_of_holds hn' hn h' h) (exponent_le_of_holds hn hn' h h')
  exact ⟨le_antisymm (le_of_holds hm h' h) (le_of_holds hm' h h'), rfl⟩

end Intervals

section Grids

variable {a m c : ℕ} {q k top : ℤ} {r : Rounding}

theorem scaled_den_pos : 0 < (scaled a q).2 := by
  unfold scaled
  split
  · exact Nat.pow_pos two_pos
  · exact one_pos

theorem scaled_eq : ((scaled a q).1 : ℚ) = a * 2 ^ q * (scaled a q).2 := by
  unfold scaled
  split
  · next hneg =>
    have hpow : (2 : ℚ) ^ q * 2 ^ q.natAbs = 1 := by
      rw [← zpow_natCast, ← zpow_add₀ two_ne_zero, show q + q.natAbs = 0 by omega, zpow_zero]
    simp [mul_assoc, hpow]
  · next hpos =>
    have hpow : (2 : ℚ) ^ q.natAbs = 2 ^ q := by
      rw [← zpow_natCast, show (q.natAbs : ℤ) = q by omega]
    simp [hpow]

/-- A quarter of the last place and a step of the grid, as whole numbers of one common unit. -/
def units (q k : ℤ) : ℕ × ℕ :=
  let (unit, den) := scaled 1 (q - 2)
  (if k < 0 then unit * Nat.pow 10 k.natAbs else unit,
    if k < 0 then den else den * Nat.pow 10 k.natAbs)

theorem units_pos : 0 < (units q k).1 ∧ 0 < (units q k).2 := by
  have hunit : 0 < (scaled 1 (q - 2)).1 := by
    unfold scaled
    split
    · exact one_pos
    · exact Nat.mul_pos one_pos (Nat.pow_pos two_pos)
  have hpow : 0 < Nat.pow 10 k.natAbs := Nat.pow_pos (by decide)
  have hden : 0 < (scaled 1 (q - 2)).2 := scaled_den_pos
  unfold units
  dsimp only
  constructor <;> split <;> first | assumption | exact Nat.mul_pos ‹_› ‹_›

theorem units_eq : ((units q k).2 : ℚ) * 2 ^ (q - 2) = 10 ^ k * (units q k).1 := by
  have hscaled : ((scaled 1 (q - 2)).1 : ℚ) = 2 ^ (q - 2) * (scaled 1 (q - 2)).2 := by
    rw [scaled_eq, Nat.cast_one, one_mul]
  unfold units
  dsimp only
  split
  · next hneg =>
    have hpow : (10 : ℚ) ^ k * 10 ^ k.natAbs = 1 := by
      rw [← zpow_natCast, ← zpow_add₀ (by norm_num), show k + k.natAbs = 0 by omega, zpow_zero]
    rw [Nat.cast_mul, hscaled, Nat.pow_eq, Nat.cast_pow, Nat.cast_ofNat]
    linear_combination (-(2 : ℚ) ^ (q - 2) * (scaled 1 (q - 2)).2) * hpow
  · next hpos =>
    have hpow : (10 : ℚ) ^ k.natAbs = 10 ^ k := by
      rw [← zpow_natCast, show (k.natAbs : ℤ) = k by omega]
    rw [hscaled, Nat.cast_mul, Nat.pow_eq, Nat.cast_pow, Nat.cast_ofNat, hpow]
    ring

/-- The test of a point of the grid. -/
def Rounding.inside (r : Rounding) (q k : ℤ) (c : ℕ) : Bool :=
  if r.closed then r.low * (units q k).1 ≤ c * (units q k).2 &&
    c * (units q k).2 ≤ r.high * (units q k).1
  else r.low * (units q k).1 < c * (units q k).2 && c * (units q k).2 < r.high * (units q k).1

/-- The point of the grid below the value. -/
def Rounding.below (r : Rounding) (q k : ℤ) : ℕ := r.value * (units q k).1 / (units q k).2

theorem hit?_eq : r.hit? q k =
    match decide (0 < r.below q k) && r.inside q k (r.below q k),
      r.inside q k (r.below q k + 1) with
    | true, true =>
      let down := r.value * (units q k).1 - r.below q k * (units q k).2
      let up := (r.below q k + 1) * (units q k).2 - r.value * (units q k).1
      some (if down < up then r.below q k else if up < down then r.below q k + 1
        else if r.below q k % 2 == 0 then r.below q k else r.below q k + 1)
    | true, false => some (r.below q k)
    | false, true => some (r.below q k + 1)
    | false, false => none := rfl

/-- Multiples of a quarter place and of a step of the grid compare as the numbers of units do. -/
theorem units_lt_iff {n : ℕ} :
    (n * (units q k).1 < c * (units q k).2 ↔ (n : ℚ) * 2 ^ (q - 2) < c * 10 ^ k) ∧
    (c * (units q k).2 < n * (units q k).1 ↔ (c : ℚ) * 10 ^ k < n * 2 ^ (q - 2)) := by
  have hplace : (0 : ℚ) < 2 ^ (q - 2) := by positivity
  have hunit : (0 : ℚ) < (units q k).1 := mod_cast units_pos.1
  have hgrid : (c : ℚ) * (units q k).2 * 2 ^ (q - 2) = c * 10 ^ k * (units q k).1 := by
    rw [mul_assoc, units_eq, mul_assoc]
  have hquarter : (n : ℚ) * (units q k).1 * 2 ^ (q - 2) = n * 2 ^ (q - 2) * (units q k).1 :=
    mul_right_comm ..
  constructor
  · rw [← Nat.cast_lt (α := ℚ), Nat.cast_mul, Nat.cast_mul, ← mul_lt_mul_iff_of_pos_right hplace,
      hgrid, hquarter, mul_lt_mul_iff_of_pos_right hunit]
  · rw [← Nat.cast_lt (α := ℚ), Nat.cast_mul, Nat.cast_mul, ← mul_lt_mul_iff_of_pos_right hplace,
      hgrid, hquarter, mul_lt_mul_iff_of_pos_right hunit]

theorem inside_iff : r.inside q k c = true ↔ r.Holds q (c * 10 ^ k) := by
  unfold Rounding.inside Rounding.Holds
  split
  · rw [Bool.and_eq_true, decide_eq_true_iff, decide_eq_true_iff, ← not_lt, ← not_lt,
      units_lt_iff.1, units_lt_iff.2, not_lt, not_lt]
  · rw [Bool.and_eq_true, decide_eq_true_iff, decide_eq_true_iff, units_lt_iff.1, units_lt_iff.2]

/-- What is found on a grid lies in the interval. -/
theorem holds_of_hit? (h : r.hit? q k = some c) : r.Holds q (c * 10 ^ k) := by
  rw [← inside_iff]
  rw [hit?_eq] at h
  split at h
  · next hbelow habove =>
    rw [Bool.and_eq_true] at hbelow
    obtain rfl := Option.some.inj h
    split
    · exact hbelow.2
    · split
      · exact habove
      · split
        · exact hbelow.2
        · exact habove
  · next hbelow _ =>
    rw [Bool.and_eq_true] at hbelow
    obtain rfl := Option.some.inj h
    exact hbelow.2
  · next habove =>
    obtain rfl := Option.some.inj h
    exact habove
  · exact nomatch h

theorem isSome_hit?_of (h : 0 < r.below q k ∧ r.Holds q (r.below q k * 10 ^ k) ∨
    r.Holds q ((r.below q k + 1 : ℕ) * 10 ^ k)) : (r.hit? q k).isSome = true := by
  rw [← inside_iff, ← inside_iff] at h
  rw [hit?_eq]
  split
  · rfl
  · rfl
  · rfl
  · next hbelow habove =>
    rcases h with h | h
    · simp [h] at hbelow
    · simp [h] at habove

theorem below_bounds : (r.below q k : ℚ) * 10 ^ k ≤ r.value * 2 ^ (q - 2) ∧
    (r.value : ℚ) * 2 ^ (q - 2) < (r.below q k + 1 : ℕ) * 10 ^ k := by
  rw [← units_lt_iff.1, ← not_lt, ← units_lt_iff.1, not_lt]
  exact ⟨Nat.div_mul_le_self _ _, Nat.lt_mul_of_div_lt (Nat.lt_succ_self _) units_pos.2⟩

/-- A grid whose seventeenth place is at most the first of the value has a point in the interval: if
the one above lies beyond it, the one below is not so far away. -/
theorem isSome_hit? (hn : Normal m q) (hm : 0 < m) (hk : (10 : ℚ) ^ k * 10 ^ 16 ≤ m * 2 ^ q) :
    ((Rounding.of m q).hit? q k).isSome = true := by
  have hplace : (0 : ℚ) < 2 ^ (q - 2) := by positivity
  have hquarters : (2 : ℚ) ^ q = 4 * 2 ^ (q - 2) := by
    rw [show q = 2 + (q - 2) by ring, zpow_add₀ two_ne_zero, show 2 + (q - 2) - 2 = q - 2 by ring]
    norm_num
  have hone : (1 : ℚ) ≤ m := mod_cast hm
  have hlt : (m : ℚ) < 10 ^ 16 := by
    have := hn.lt
    exact mod_cast (by omega : m < 10 ^ 16)
  obtain ⟨hbelow, habove⟩ := below_bounds (r := Rounding.of m q) (q := q) (k := k)
  have hvalue : ((Rounding.of m q).value : ℚ) = 4 * m := by
    unfold Rounding.of
    push_cast
    rfl
  rw [hvalue] at hbelow habove
  have hstep : (10 : ℚ) ^ k < 4 * 2 ^ (q - 2) := by
    rw [hquarters] at hk
    nlinarith
  have hlow : ((Rounding.of m q).low : ℚ) * 2 ^ (q - 2) < 4 * m * 2 ^ (q - 2) := by
    refine mul_lt_mul_of_pos_right ?_ hplace
    rw [low_of hm]
    split <;> linarith
  apply isSome_hit?_of
  by_cases hnear : ((Rounding.of m q).below q k + 1 : ℕ) * (10 : ℚ) ^ k < (4 * m + 2) * 2 ^ (q - 2)
  · refine .inr (Rounding.holds_of_lt (hlow.trans habove) ?_)
    rwa [high_of]
  · have hfar : (4 * m + 2 : ℚ) * 2 ^ (q - 2) ≤ (Rounding.of m q).below q k * 10 ^ k + 10 ^ k := by
      push_cast at hnear
      linarith
    have hinside : ((Rounding.of m q).low : ℚ) * 2 ^ (q - 2) <
        (Rounding.of m q).below q k * 10 ^ k := by
      rw [low_of hm]
      split
      · next hpower =>
        -- a power of two has less room below, but its grid is fine enough for the point above
        rw [hquarters, hpower.1] at hk
        push_cast at hk
        linarith
      · linarith
    have hpos : 0 < (Rounding.of m q).below q k := by
      refine Nat.pos_of_ne_zero fun hzero => ?_
      rw [hzero, Nat.cast_zero, zero_mul] at hinside
      exact hinside.not_ge (by positivity)
    refine .inl ⟨hpos, Rounding.holds_of_lt hinside ?_⟩
    rw [high_of]
    linarith

end Grids

section Search

variable {m : ℕ} {q top : ℤ} {r : Rounding}

/-- What a search settles on lies in the interval if one of the grids it tries has a point there. -/
theorem holds_search {digits tries : ℕ}
    (h : ∃ n < tries, (r.hit? q (top - (digits + n : ℕ) + 1)).isSome = true) :
    r.Holds q (r.search q top digits tries).value := by
  induction tries generalizing digits with
  | zero =>
    obtain ⟨n, hn, -⟩ := h
    exact absurd hn (Nat.not_lt_zero n)
  | succ tries ih =>
    unfold Rounding.search
    dsimp only
    split
    · next c hc => exact holds_of_hit? hc
    · next hnone =>
      obtain ⟨n, hn, hsome⟩ := h
      cases n with
      | zero =>
        rw [Nat.add_zero, hnone] at hsome
        exact nomatch hsome
      | succ n =>
        refine ih ⟨n, Nat.lt_of_succ_lt_succ hn, ?_⟩
        rwa [show digits + 1 + n = digits + (n + 1) by omega]

/-- Zeros at the end of a coefficient move into the exponent. -/
theorem value_trim (d : Digits) (tries : ℕ) : (d.trim tries).value = d.value := by
  induction tries generalizing d with
  | zero => rfl
  | succ tries ih =>
    unfold Digits.trim
    split
    · next h =>
      rw [Bool.and_eq_true, beq_iff_eq] at h
      have hcoefficient : (d.coefficient : ℚ) = (d.coefficient / 10 : ℕ) * 10 := by
        exact mod_cast (by omega : d.coefficient = d.coefficient / 10 * 10)
      rw [ih]
      unfold Digits.value
      rw [hcoefficient, zpow_add_one₀ (by norm_num)]
      ring
    · rfl

/-- The guess is at most one too large: the decimal logarithm of two lies between 59/196 and
28/93. -/
theorem pow_guess_le {n : ℤ} (hge : -20000 ≤ n) (hle : n ≤ 100000) :
    (10 : ℚ) ^ (n * 30103 / 100000 - 1) ≤ 2 ^ n := by
  have hten : (1 : ℚ) ≤ 10 := by norm_num
  have hfloor := Int.ediv_mul_le (n * 30103) (show (100000 : ℤ) ≠ 0 by decide)
  generalize n * 30103 / 100000 = g at hfloor ⊢
  rcases le_or_gt 0 n with hn | hn
  · have hlog : (10 : ℚ) ^ (59 : ℤ) ≤ 2 ^ (196 : ℤ) := by norm_num
    refine (pow_le_pow_iff_left₀ (by positivity) (by positivity) (show 196 ≠ 0 by decide)).mp ?_
    calc ((10 : ℚ) ^ (g - 1)) ^ 196 = 10 ^ ((g - 1) * 196) := by rw [zpow_mul]; rfl
      _ ≤ 10 ^ (59 * n) := zpow_le_zpow_right₀ hten (by omega)
      _ = (10 ^ (59 : ℤ)) ^ n := zpow_mul ..
      _ ≤ (2 ^ (196 : ℤ)) ^ n := zpow_le_zpow_left₀ hn (by positivity) hlog
      _ = (2 ^ n) ^ 196 := by rw [zpow_comm]; rfl
  · have hlog : (2 : ℚ) ^ (93 : ℤ) ≤ 10 ^ (28 : ℤ) := by norm_num
    have hinverse : ((10 : ℚ) ^ (28 : ℤ)) ^ n ≤ (2 ^ (93 : ℤ)) ^ n := by
      have hpow := zpow_le_zpow_left₀ (n := -n) (by omega) (by positivity) hlog
      rwa [zpow_neg, zpow_neg, inv_le_inv₀ (by positivity) (by positivity)] at hpow
    refine (pow_le_pow_iff_left₀ (by positivity) (by positivity) (show 93 ≠ 0 by decide)).mp ?_
    calc ((10 : ℚ) ^ (g - 1)) ^ 93 = 10 ^ ((g - 1) * 93) := by rw [zpow_mul]; rfl
      _ ≤ 10 ^ (28 * n) := zpow_le_zpow_right₀ hten (by omega)
      _ = (10 ^ (28 : ℤ)) ^ n := zpow_mul ..
      _ ≤ (2 ^ (93 : ℤ)) ^ n := hinverse
      _ = (2 ^ n) ^ 93 := by rw [zpow_comm]; rfl

/-- The test whether a fraction reaches a power of ten. -/
def reaches (num den : ℕ) (e : ℤ) : Bool :=
  if e < 0 then den ≤ num * Nat.pow 10 e.natAbs else den * Nat.pow 10 e.natAbs ≤ num

theorem decimalExponent_eq {num den : ℕ} {guess : ℤ} : decimalExponent num den guess =
    if reaches num den (guess + 1) then guess + 1
    else if reaches num den guess then guess else guess - 1 := rfl

theorem pow_le_of_reaches {num den : ℕ} {x : ℚ} {e : ℤ} (hden : 0 < den) (hx : (num : ℚ) = x * den)
    (h : reaches num den e = true) : (10 : ℚ) ^ e ≤ x := by
  have hcast : (0 : ℚ) < den := mod_cast hden
  unfold reaches at h
  split at h
  · next hneg =>
    have hpow : (10 : ℚ) ^ e = (10 ^ e.natAbs)⁻¹ := by
      rw [← zpow_natCast, ← zpow_neg, show -(e.natAbs : ℤ) = e by omega]
    have hle : (den : ℚ) ≤ num * 10 ^ e.natAbs := mod_cast of_decide_eq_true h
    rw [hx, mul_right_comm] at hle
    rw [hpow, inv_le_iff_one_le_mul₀ (by positivity)]
    exact le_of_mul_le_mul_right (by rwa [one_mul]) hcast
  · next hpos =>
    have hpow : (10 : ℚ) ^ e = 10 ^ e.natAbs := by
      rw [← zpow_natCast, show (e.natAbs : ℤ) = e by omega]
    have hle : (den : ℚ) * 10 ^ e.natAbs ≤ num := mod_cast of_decide_eq_true h
    rw [hx, mul_comm] at hle
    rw [hpow]
    exact le_of_mul_le_mul_right hle hcast

theorem pow_decimalExponent_le {a : ℕ} {guess : ℤ}
    (hguess : (10 : ℚ) ^ (guess - 1) ≤ a * 2 ^ q) :
    (10 : ℚ) ^ decimalExponent (scaled a q).1 (scaled a q).2 guess ≤ a * 2 ^ q := by
  rw [decimalExponent_eq]
  split
  · next h => exact pow_le_of_reaches scaled_den_pos scaled_eq h
  split
  · next h => exact pow_le_of_reaches scaled_den_pos scaled_eq h
  · exact hguess

/-- The decimal chosen for a double rounds to it. -/
theorem holds_shortest (hn : Normal m q) (hm : 0 < m) :
    (Rounding.of m q).Holds q (shortest m q).value := by
  have hleast : (2 : ℚ) ^ (m.log2 + q : ℤ) ≤ m * 2 ^ q := by
    rw [zpow_add₀ two_ne_zero]
    refine mul_le_mul_of_nonneg_right ?_ (by positivity)
    rw [zpow_natCast]
    exact mod_cast Nat.log2_self_le hm.ne'
  have hlog : (m.log2 + q : ℤ) ≤ 100000 := by
    have := (Nat.log2_lt hm.ne').mpr hn.lt
    have := hn.exponent_le
    omega
  have hlog' : -20000 ≤ (m.log2 + q : ℤ) := by
    have := hn.exponent_ge
    omega
  have htop := pow_decimalExponent_le ((pow_guess_le hlog' hlog).trans hleast)
  unfold shortest
  rw [if_neg (by simpa using hm.ne')]
  dsimp only
  rw [value_trim]
  refine holds_search ⟨16, by decide, isSome_hit? hn hm (le_trans (le_of_eq ?_) htop)⟩
  rw [← zpow_natCast, ← zpow_add₀ (by norm_num)]
  congr 1
  push_cast
  ring

end Search

end ClusterScaler.Decimal
