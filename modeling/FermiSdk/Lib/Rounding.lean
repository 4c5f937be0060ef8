import Mathlib.Algebra.BigOperators.Group.List.Lemmas
import Mathlib.Algebra.Order.BigOperators.Group.List
import Mathlib.Tactic.Linarith
import Mathlib.Tactic.Ring

/-!
# Rounded integer division

Division of integers rounded down (`/`) and up, and what the two roundings do to a quantity that
is cut into parts: rounding down each part of a sum gives at most the rounded sum
(`sum_mul_div_le`), rounding up each part gives at least it (`ceil_sum_le`). A proportional
charge of at most the whole leaves a remainder that grows with the amount
(`sub_mul_div_mono`).
-/

namespace FermiSdk.Lib.Rounding

/-! ## One quotient -/

theorem div_mul_le (a : Int) {b : Int} (hb : 0 < b) : a / b * b ≤ a :=
  Int.ediv_mul_le a (Int.ne_of_gt hb)

theorem lt_div_succ_mul (a : Int) {b : Int} (hb : 0 < b) : a < (a / b + 1) * b := by
  have := Int.lt_ediv_add_one_mul_self a hb
  linarith

theorem div_nonneg {a b : Int} (ha : 0 ≤ a) (hb : 0 < b) : 0 ≤ a / b :=
  Int.ediv_nonneg ha (Int.le_of_lt hb)

theorem le_div_iff {a b k : Int} (hb : 0 < b) : k ≤ a / b ↔ k * b ≤ a :=
  Int.le_ediv_iff_mul_le hb

theorem div_lt_iff {a b k : Int} (hb : 0 < b) : a / b < k ↔ a < k * b :=
  Int.ediv_lt_iff_lt_mul hb

/-- Quotients are ordered as the fractions they round. -/
theorem div_le_div_of_cross {a b a' b' : Int} (hb : 0 < b) (hb' : 0 < b')
    (h : a * b' ≤ a' * b) : a / b ≤ a' / b' := by
  rw [le_div_iff hb']
  refine Int.le_of_mul_le_mul_right ?_ hb
  calc a / b * b' * b = a / b * b * b' := by ring
    _ ≤ a * b' := Int.mul_le_mul_of_nonneg_right (div_mul_le a hb) (Int.le_of_lt hb')
    _ ≤ a' * b := h

/-- Truncating and flooring division agree on a nonnegative dividend. -/
theorem tdiv_eq_div {a : Int} (ha : 0 ≤ a) (b : Int) : a.tdiv b = a / b :=
  Int.tdiv_eq_ediv_of_nonneg ha

/-- The quotient rounded up is the quotient rounded down, plus one unless it is exact. -/
theorem ceil_eq (a : Int) {d : Int} (hd : 0 < d) :
    (a + (d - 1)) / d = a / d + if d ∣ a then 0 else 1 := by
  have hsplit := Int.mul_ediv_add_emod a d
  have hlt := Int.emod_lt_of_pos a hd
  have hnn := Int.emod_nonneg a (Int.ne_of_gt hd)
  by_cases hdvd : d ∣ a
  · have hz : a % d = 0 := Int.emod_eq_zero_of_dvd hdvd
    have e : a + (d - 1) = (d - 1) + d * (a / d) := by linarith
    rw [if_pos hdvd, e, Int.add_mul_ediv_left _ _ (Int.ne_of_gt hd),
      Int.ediv_eq_zero_of_lt (by omega) (by omega)]
    omega
  · have hz : a % d ≠ 0 := fun h => hdvd (Int.dvd_of_emod_eq_zero h)
    have e : a + (d - 1) = (a % d - 1) + d * (a / d + 1) := by linarith
    rw [if_neg hdvd, e, Int.add_mul_ediv_left _ _ (Int.ne_of_gt hd),
      Int.ediv_eq_zero_of_lt (by omega) (by omega)]
    omega

theorem le_ceil_iff {a d k : Int} (hd : 0 < d) : (a + (d - 1)) / d ≤ k ↔ a ≤ k * d := by
  rw [← Int.lt_add_one_iff, div_lt_iff hd, Int.add_mul]
  omega

/-! ## Parts of a sum -/

section Parts

variable {d : Int} (hd : 0 < d) (n : Int)

include hd in
theorem add_mul_div_le (x y : Int) : x * n / d + y * n / d ≤ (x + y) * n / d := by
  rw [le_div_iff hd, Int.add_mul, Int.add_mul]
  have := div_mul_le (x * n) hd
  have := div_mul_le (y * n) hd
  omega

include hd in
/-- **Rounding down the parts** of a sum gives at most the rounded sum. -/
theorem sum_mul_div_le : ∀ l : List Int, (l.map (fun x => x * n / d)).sum ≤ l.sum * n / d
  | [] => by simp
  | x :: l => by
    have := sum_mul_div_le l
    have := add_mul_div_le hd n x l.sum
    simp only [List.map_cons, List.sum_cons]
    omega

include hd in
/-- **Rounding up the parts** of a sum gives at least the sum rounded up. -/
theorem ceil_sum_le : ∀ l : List Int,
    (l.sum * n + (d - 1)) / d ≤ (l.map (fun x => (x * n + (d - 1)) / d)).sum
  | [] => by
    simp only [List.sum_nil, Int.zero_mul, Int.zero_add, List.map_nil]
    rw [Int.ediv_eq_zero_of_lt (by omega) (by omega)]
  | x :: l => by
    have ih := ceil_sum_le l
    rw [le_ceil_iff hd] at ih ⊢
    have := (le_ceil_iff hd (a := x * n)).1 (Int.le_refl _)
    simp only [List.map_cons, List.sum_cons, Int.add_mul]
    omega

include hd in
/-- What a rounded-down charge of rate `n / d ≤ 1` leaves grows with the amount charged. -/
theorem sub_mul_div_mono (hn : n ≤ d) {x y : Int} (hxy : x ≤ y) :
    x - x * n / d ≤ y - y * n / d := by
  have hle : y * n ≤ x * n + (y - x) * d := by
    have := Int.mul_le_mul_of_nonneg_left hn (Int.sub_nonneg.2 hxy)
    linarith [this, Int.sub_mul y x n]
  have hdiv : y * n / d ≤ (x * n + (y - x) * d) / d := Int.ediv_le_ediv hd hle
  rw [Int.add_mul_ediv_right _ _ (Int.ne_of_gt hd)] at hdiv
  omega

end Parts

end FermiSdk.Lib.Rounding
