import ClusterScaler.Provider.Retry
import Mathlib.Algebra.Order.Ring.Nat
import Mathlib.Order.Lattice

/-!
# The pauses between retries

The pause before a retry is the base delay times a factor, and never longer than the longest pause. The
factor doubles from one retry to the next as long as it fits in 32 bits; from the 33rd retry on it is
the largest number that does. So a base delay that is small beside the longest pause stops doubling
before it comes to the longest pause.
-/

set_option autoImplicit false

namespace ClusterScaler.RetryPolicy

/-- The largest factor on the base delay. -/
def factorLimit : Nat := 2 ^ 32 - 1

theorem factor_eq_min (attempt : Nat) : factor attempt = min (2 ^ (attempt - 1)) factorLimit := by
  unfold factor factorLimit
  split
  · next hshort =>
    have hfits : 2 ^ (attempt - 1) ≤ 2 ^ 31 :=
      Nat.pow_le_pow_right Nat.zero_lt_two (Nat.le_of_lt_succ hshort)
    exact (Nat.min_eq_left (hfits.trans (by decide))).symm
  · next hlong =>
    have hover : 2 ^ 32 ≤ 2 ^ (attempt - 1) :=
      Nat.pow_le_pow_right Nat.zero_lt_two (Nat.not_lt.mp hlong)
    exact (Nat.min_eq_right ((Nat.sub_le _ _).trans hover)).symm

theorem factor_mono {k k' : Nat} (h : k ≤ k') : factor k ≤ factor k' := by
  rw [factor_eq_min, factor_eq_min]
  exact min_le_min_right _ (Nat.pow_le_pow_right Nat.zero_lt_two (Nat.sub_le_sub_right h 1))

/-- The factor is the power of two exactly as long as this fits in 32 bits. -/
theorem factor_eq_pow_iff (attempt : Nat) : factor attempt = 2 ^ (attempt - 1) ↔ attempt ≤ 32 := by
  rw [factor_eq_min, min_eq_left_iff]
  constructor
  · intro hfits
    by_contra hlong
    have hover : 2 ^ 32 ≤ 2 ^ (attempt - 1) :=
      Nat.pow_le_pow_right Nat.zero_lt_two (by omega)
    exact absurd (hover.trans hfits) (by decide)
  · intro hshort
    have hfits : 2 ^ (attempt - 1) ≤ 2 ^ 31 :=
      Nat.pow_le_pow_right Nat.zero_lt_two (by omega)
    exact hfits.trans (by decide)

variable (p : RetryPolicy)

/-- A pause is the product, unless this is longer than the longest pause or than any duration. -/
theorem delayFor_nanos (attempt : Nat) :
    (p.delayFor attempt).nanos =
      if p.baseDelay.nanos * factor attempt ≤ Duration.maximum.nanos then
        min (p.baseDelay.nanos * factor attempt) p.maxDelay.nanos
      else p.maxDelay.nanos := by
  unfold delayFor Duration.min
  dsimp only
  split
  · split
    · next hle => exact (min_eq_left hle).symm
    · next hlt => exact (min_eq_right (Nat.le_of_not_le hlt)).symm
  · rfl

theorem delayFor_le_maxDelay (attempt : Nat) : (p.delayFor attempt).nanos ≤ p.maxDelay.nanos := by
  rw [delayFor_nanos]
  split
  · exact min_le_right _ _
  · exact le_refl _

/-- No pause is shorter than the one before it. -/
theorem delayFor_mono {k k' : Nat} (h : k ≤ k') : (p.delayFor k).nanos ≤ (p.delayFor k').nanos := by
  have hproduct : p.baseDelay.nanos * factor k ≤ p.baseDelay.nanos * factor k' :=
    Nat.mul_le_mul_left _ (factor_mono h)
  by_cases hfits : p.baseDelay.nanos * factor k' ≤ Duration.maximum.nanos
  · rw [delayFor_nanos, delayFor_nanos, if_pos hfits, if_pos (hproduct.trans hfits)]
    exact min_le_min_right _ hproduct
  · rw [p.delayFor_nanos k', if_neg hfits]
    exact p.delayFor_le_maxDelay k

variable {p}

/-- If the longest pause is a duration, a product that is longer than any duration is also longer than
the longest pause. -/
theorem delayFor_eq_min (hmax : p.maxDelay.nanos ≤ Duration.maximum.nanos) (attempt : Nat) :
    p.delayFor attempt = ⟨min p.maxDelay.nanos (p.baseDelay.nanos * factor attempt)⟩ := by
  have hnanos : (p.delayFor attempt).nanos =
      min p.maxDelay.nanos (p.baseDelay.nanos * factor attempt) := by
    rw [delayFor_nanos]
    split
    · exact min_comm _ _
    · next hover => exact (min_eq_left (hmax.trans (Nat.le_of_not_le hover))).symm
  exact congrArg Duration.mk hnanos

/-- The base delay doubles from retry to retry as far as the factor goes, up to the longest pause. That
is what it does without a limit to the factor exactly up to the 32nd retry, and from there on if the
largest factor reaches the longest pause, or there is nothing to double. -/
theorem delayFor_doubles_iff (hmax : p.maxDelay.nanos ≤ Duration.maximum.nanos) (attempt : Nat) :
    p.delayFor attempt =
        ⟨min p.maxDelay.nanos (p.baseDelay.nanos * min (2 ^ (attempt - 1)) factorLimit)⟩ ∧
      (p.delayFor attempt = ⟨min p.maxDelay.nanos (p.baseDelay.nanos * 2 ^ (attempt - 1))⟩ ↔
        attempt ≤ 32 ∨ p.baseDelay.nanos = 0 ∨
          p.maxDelay.nanos ≤ p.baseDelay.nanos * factorLimit) := by
  have hdelay := delayFor_eq_min hmax attempt
  refine ⟨factor_eq_min attempt ▸ hdelay, ?_⟩
  rw [hdelay, Duration.mk.injEq]
  by_cases hshort : attempt ≤ 32
  · rw [(factor_eq_pow_iff attempt).mpr hshort]
    exact iff_of_true rfl (.inl hshort)
  · -- from here on the factor stands still and the power of two is larger
    have hover : 2 ^ 32 ≤ 2 ^ (attempt - 1) := Nat.pow_le_pow_right Nat.zero_lt_two (by omega)
    have hlarger : factorLimit < 2 ^ (attempt - 1) :=
      Nat.lt_of_lt_of_le (by decide) hover
    have hfactor : factor attempt = factorLimit := by
      rw [factor_eq_min, min_eq_right hlarger.le]
    rw [hfactor]
    constructor
    · intro hsame
      by_contra hnone
      push Not at hnone
      obtain ⟨-, hbase, hlow⟩ := hnone
      have hgrows : p.baseDelay.nanos * factorLimit < p.baseDelay.nanos * 2 ^ (attempt - 1) :=
        Nat.mul_lt_mul_of_pos_left hlarger (Nat.pos_of_ne_zero hbase)
      rw [min_eq_right hlow.le] at hsame
      exact absurd hsame (lt_min hlow hgrows).ne
    · rintro (hfew | hzero | hhigh)
      · exact absurd hfew hshort
      · rw [hzero, Nat.zero_mul, Nat.zero_mul]
      · have hhigher : p.maxDelay.nanos ≤ p.baseDelay.nanos * 2 ^ (attempt - 1) :=
          hhigh.trans (Nat.mul_le_mul_left _ hlarger.le)
        rw [min_eq_left hhigh, min_eq_left hhigher]

/-- A base delay of one nanosecond, beside a longest pause of ten seconds. -/
def ofNanosecond : RetryPolicy := { baseDelay := ⟨1⟩ }

/-- Before the 33rd retry that policy pauses one nanosecond less than doubling would have it, and far
less than its longest pause. -/
theorem delayFor_stalls_ofNanosecond :
    ofNanosecond.maxDelay.nanos ≤ Duration.maximum.nanos ∧
      ofNanosecond.delayFor 33 = ⟨2 ^ 32 - 1⟩ ∧
        ofNanosecond.delayFor 33 ≠
          ⟨min ofNanosecond.maxDelay.nanos (ofNanosecond.baseDelay.nanos * 2 ^ (33 - 1))⟩ := by
  decide

/-- However often that policy retries, its pauses stay below five seconds. -/
theorem delayFor_doubles_iff_ofNanosecond :
    ofNanosecond.maxDelay.nanos ≤ Duration.maximum.nanos ∧
      ofNanosecond.delayFor 40 = ⟨2 ^ 32 - 1⟩ ∧
        ofNanosecond.delayFor 40 ≠
          ⟨min ofNanosecond.maxDelay.nanos (ofNanosecond.baseDelay.nanos * 2 ^ (40 - 1))⟩ := by
  have hmax : ofNanosecond.maxDelay.nanos ≤ Duration.maximum.nanos := by decide
  obtain ⟨hdelay, hdoubles⟩ := delayFor_doubles_iff hmax 40
  refine ⟨hmax, hdelay.trans (by decide), fun hsame => ?_⟩
  exact absurd (hdoubles.mp hsame) (by decide)

end ClusterScaler.RetryPolicy
