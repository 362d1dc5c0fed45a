import ClusterScaler.Proofs.Decimal.Rounding

/-!
# Doubles as significand and exponent

A finite double is given by its sign, its significand and its exponent (`eq_of_classify_eq`), which are
in normal form (`normal_of_classify`). So the decimals that are chosen for two of them denote different
numbers unless they have the same significand and exponent (`eq_of_value_shortest_eq`).
-/

set_option autoImplicit false

namespace ClusterScaler.Decimal

variable {x y : Float} {v : Binary} {m m' : ℕ} {q q' : ℤ}

/-- The bits of the exponent, as they are stored. -/
def biased (x : Float) : ℕ := x.toBits.toNat / 2 ^ 52 % 2048

open Float.Model Float.Model.UnpackedFloat in
theorem isFinite_iff : x.isFinite = true ↔ biased x ≠ 2047 := by
  have hbits : (@unpackExponent Format.binary64 x.toBits.toBitVec).toNat = biased x := by
    unfold unpackExponent biased
    simp [Nat.shiftRight_eq_div_pow]
  have hones : @unpackExponent Format.binary64 x.toBits.toBitVec = -BitVec.ofNat 11 1 ↔
      biased x = 2047 := by
    rw [← hbits, ← BitVec.toNat_inj]
    rfl
  have hfinite : x.isFinite = (UnpackedFloat.unpack Format.binary64 x.toBits.toBitVec).isFinite := rfl
  rw [hfinite, ne_eq, ← hones]
  unfold UnpackedFloat.unpack
  dsimp only
  by_cases hexponent : @unpackExponent Format.binary64 x.toBits.toBitVec = -BitVec.ofNat 11 1
  · rw [if_pos hexponent]
    split <;> exact iff_of_false Bool.false_ne_true fun hne => hne hexponent
  · rw [if_neg hexponent]
    refine iff_of_true ?_ hexponent
    by_cases hzero : @unpackExponent Format.binary64 x.toBits.toBitVec = BitVec.ofNat 11 0
    · rw [if_pos hzero]
      by_cases hmantissa : @unpackMantissa Format.binary64 x.toBits.toBitVec = BitVec.ofNat 52 0
      · rw [dif_pos hmantissa]
        rfl
      · rw [dif_neg hmantissa]
        rfl
    · rw [if_neg hzero]
      rfl

/-- The bits behind the point. -/
def fraction (x : Float) : ℕ := x.toBits.toNat % 2 ^ 52

theorem classify_eq : classify x =
    if biased x = 2047 then
      if fraction x = 0 then .infinite (x.toBits.toNat / 2 ^ 63 == 1) else .nan
    else if biased x = 0 then .finite ⟨x.toBits.toNat / 2 ^ 63 == 1, fraction x, -1074⟩
    else .finite ⟨x.toBits.toNat / 2 ^ 63 == 1, 2 ^ 52 + fraction x, (biased x : ℤ) - 1075⟩ := by
  unfold classify
  simp only [beq_iff_eq]
  rfl

theorem fraction_lt (x : Float) : fraction x < 2 ^ 52 := Nat.mod_lt _ (by decide)

theorem biased_lt (x : Float) : biased x < 2048 := Nat.mod_lt _ (by decide)

/-- A double is finite exactly if it is classified so. -/
theorem isFinite_iff_classify : x.isFinite = true ↔ ∃ v, classify x = .finite v := by
  rw [isFinite_iff, classify_eq]
  split
  · next hbiased => split <;> simp [hbiased]
  · next hbiased => split <;> simp [hbiased]

/-- The parts of a finite double: its sign, and either a small fraction or one with a leading bit. -/
theorem parts_of_classify (h : classify x = .finite v) :
    v.negative = (x.toBits.toNat / 2 ^ 63 == 1) ∧
      (biased x = 0 ∧ v.significand = fraction x ∧ v.exponent = -1074 ∨
        biased x ≠ 0 ∧ biased x ≠ 2047 ∧ v.significand = 2 ^ 52 + fraction x ∧
          v.exponent = biased x - 1075) := by
  rw [classify_eq] at h
  split at h
  · split at h <;> cases h
  · next hbiased =>
    split at h
    · next hzero =>
      cases h
      exact ⟨rfl, .inl ⟨hzero, rfl, rfl⟩⟩
    · next hzero =>
      cases h
      exact ⟨rfl, .inr ⟨hzero, hbiased, rfl, rfl⟩⟩

theorem normal_of_classify (h : classify x = .finite v) : Normal v.significand v.exponent := by
  have hfraction := fraction_lt x
  have hbiased := biased_lt x
  rcases (parts_of_classify h).2 with ⟨-, hs, he⟩ | ⟨h0, htop, hs, he⟩ <;>
    rw [hs, he] <;> constructor <;> omega

/-- A finite double is given by its sign, its significand and its exponent. -/
theorem eq_of_classify_eq (hx : classify x = .finite v) (hy : classify y = .finite v) : x = y := by
  have hbits : x.toBits = y.toBits := by
    obtain ⟨hsign, hparts⟩ := parts_of_classify hx
    obtain ⟨hsign', hparts'⟩ := parts_of_classify hy
    have hsame : x.toBits.toNat / 2 ^ 63 = 1 ↔ y.toBits.toNat / 2 ^ 63 = 1 := by
      rw [← beq_iff_eq, ← hsign, hsign', beq_iff_eq]
    have hlt := x.toBits.toNat_lt
    have hlt' := y.toBits.toNat_lt
    have hfraction := fraction_lt x
    have hfraction' := fraction_lt y
    have hexponent : biased x = biased y ∧ fraction x = fraction y := by omega
    unfold biased fraction at hexponent
    rw [← UInt64.toNat_inj]
    omega
  cases x with
  | ofModel mx =>
    cases y with
    | ofModel my =>
      cases mx
      cases my
      cases hbits
      rfl

theorem value_shortest_zero : (shortest 0 q).value = 0 := by
  simp [shortest, Digits.value]

theorem value_shortest_pos (hn : Normal m q) (hm : 0 < m) : 0 < (shortest m q).value :=
  (holds_shortest hn hm).pos hm

/-- Different doubles are written as different decimals, up to the sign. -/
theorem eq_of_value_shortest_eq (hn : Normal m q) (hn' : Normal m' q')
    (h : (shortest m q).value = (shortest m' q').value) : m = m' ∧ q = q' := by
  rcases Nat.eq_zero_or_pos m with rfl | hm
  · rcases Nat.eq_zero_or_pos m' with rfl | hm'
    · exact ⟨rfl, (hn.exponent_eq (by decide)).trans (hn'.exponent_eq (by decide)).symm⟩
    · have := value_shortest_pos hn' hm'
      rw [← h, value_shortest_zero] at this
      exact absurd this (lt_irrefl 0)
  · rcases Nat.eq_zero_or_pos m' with rfl | hm'
    · have := value_shortest_pos hn hm
      rw [h, value_shortest_zero] at this
      exact absurd this (lt_irrefl 0)
    · have hholds := holds_shortest hn hm
      rw [h] at hholds
      exact eq_of_holds hn hn' hm hm' hholds (holds_shortest hn' hm')

end ClusterScaler.Decimal
