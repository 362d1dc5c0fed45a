import ClusterScaler.Resources
import ClusterScaler.Proofs.Table.Lookup
import Mathlib.Algebra.BigOperators.Group.List.Basic
import Mathlib.Algebra.Order.Floor.Defs
import Mathlib.Data.Rat.Floor
import Mathlib.Tactic.Linarith

/-!
# Exact amounts

Amounts that are rational numbers add up without rounding. Of such amounts a vector keeps an exact
account: what is taken away in turn is the sum of what was taken away.
-/

set_option autoImplicit false

namespace ClusterScaler

instance : Amount ℚ where
  zero := 0
  one := 1
  slack := 1 / 10 ^ 9
  lt a b := decide (a < b)
  le a b := decide (a ≤ b)
  ofNat n := n
  least xs := xs.tail.foldl min (xs.headD 0)
  ceil a := min ⌈a⌉.toNat maxCount

namespace Resources

/-- No amount of a vector is negative. -/
def NonNegative (r : Resources ℚ) : Prop := ∀ e ∈ r.toList, 0 ≤ e.2

variable {r d : Resources ℚ} {name : String}

theorem get_eq_of_mem {amount : ℚ} (h : (name, amount) ∈ r.toList) : r.get name = amount := by
  unfold get
  rw [Table.get?_eq_some_iff.mpr h, Option.getD_some]

theorem NonNegative.get (h : r.NonNegative) (name : String) : 0 ≤ r.get name := by
  unfold Resources.get
  cases hfound : r.amounts.get? name with
  | none => exact le_refl _
  | some amount => exact h (name, amount) (Table.get?_eq_some_iff.mp hfound)

/-- What is taken away is missing, name by name. -/
theorem get_subtract (r d : Resources ℚ) (name : String) :
    (r.subtract d).get name = r.get name - d.get name := by
  unfold subtract combine get toList
  rw [Table.get?_foldl_upsert]
  cases d.amounts.get? name with
  | none => exact (sub_zero _).symm
  | some amount => rfl

/-- What is taken away in turn is missing in all. -/
theorem get_foldl_subtract (r : Resources ℚ) (ds : List (Resources ℚ)) (name : String) :
    (ds.foldl subtract r).get name = r.get name - (ds.map (·.get name)).sum := by
  induction ds generalizing r with
  | nil => exact (sub_zero _).symm
  | cons d rest ih => rw [List.foldl_cons, ih, get_subtract, List.map_cons, List.sum_cons, sub_sub]

theorem fits_iff : r.fits d = true ↔ ∀ e ∈ d.toList, e.2 ≤ r.get e.1 + 1 / 10 ^ 9 := by
  unfold fits
  rw [List.all_eq_true]
  exact forall₂_congr fun e _ => decide_eq_true_iff

/-- With less of every amount no more fits. -/
theorem fits_of_le {r' : Resources ℚ} (hle : ∀ name, r'.get name ≤ r.get name)
    (h : r'.fits d = true) : r.fits d = true := by
  rw [fits_iff] at h ⊢
  exact fun e he => (h e he).trans (add_le_add_left (hle e.1) _)

end Resources

end ClusterScaler
