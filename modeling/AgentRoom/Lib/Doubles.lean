import Mathlib.Algebra.Order.Ring.Rat
import Mathlib.Data.Int.Log
import Mathlib.Data.Rat.Floor
import Mathlib.Tactic.FieldSimp
import Mathlib.Tactic.Linarith

set_option autoImplicit false

/-! # Rounding to doubles

A double is a rational with a significand of 53 bits. The result of an operation on doubles is
the exact result, rounded to the nearest double; of two equally near ones the even one is taken.
Overflow is not modelled here: a user says which of its numbers are too large.
-/

namespace Doubles

/-- The nearest integer; half way between two, the even one. -/
def roundHalfEven (x : ℚ) : Int :=
  let n := ⌊x⌋
  let rest := x - n
  if rest < 1 / 2 then n
  else if 1 / 2 < rest then n + 1
  else if n % 2 = 0 then n
  else n + 1

/-- The distance of the doubles around a number; it grows no smaller below `2 ^ -1022`. -/
def ulp (x : ℚ) : ℚ := 2 ^ max (Int.log 2 |x| - 52) (-1074)

/-- The nearest double. -/
def nearest (x : ℚ) : ℚ := roundHalfEven (x / ulp x) * ulp x

/-- How a result is kept: as the nearest double, or exactly. -/
inductive Arithmetic
  | double | exact
  deriving DecidableEq, Repr

namespace Arithmetic

def round : Arithmetic → ℚ → ℚ
  | .double, x => nearest x
  | .exact, x => x

/-- The product of two kept numbers. -/
def mul (a : Arithmetic) (x y : ℚ) : ℚ := a.round (x * y)

/-- The sum of two kept numbers. -/
def add (a : Arithmetic) (x y : ℚ) : ℚ := a.round (x + y)

/-- The quotient of two integers. -/
def divInt (a : Arithmetic) (m n : Int) : ℚ := a.round (m / n)

@[simp] theorem round_exact (x : ℚ) : exact.round x = x := rfl

@[simp] theorem mul_exact (x y : ℚ) : exact.mul x y = x * y := rfl

@[simp] theorem add_exact (x y : ℚ) : exact.add x y = x + y := rfl

@[simp] theorem divInt_exact (m n : Int) : exact.divInt m n = m / n := rfl

end Arithmetic

/-! ## Integers are kept in order -/

theorem roundHalfEven_le {x : ℚ} {k : Int} (h : x ≤ k) : roundHalfEven x ≤ k := by
  have hfloor : ⌊x⌋ ≤ k := Int.floor_le_iff.mpr (by linarith)
  rcases hfloor.lt_or_eq with hlt | heq
  · simp only [roundHalfEven]
    split_ifs <;> omega
  · have hrest : x - ⌊x⌋ < 1 / 2 := by
      rw [heq]
      linarith
    simp only [roundHalfEven, if_pos hrest]
    exact hfloor

theorem le_roundHalfEven {x : ℚ} {k : Int} (h : k ≤ x) : k ≤ roundHalfEven x := by
  have hfloor : k ≤ ⌊x⌋ := Int.le_floor.mpr h
  simp only [roundHalfEven]
  split_ifs <;> omega

theorem ulp_pos (x : ℚ) : 0 < ulp x :=
  zpow_pos (by decide) _

/-- Below `2 ^ 53` the integers are among the multiples of the distance. -/
theorem exists_mul_ulp {x : ℚ} (hx : |x| < 2 ^ 53) (k : Int) : ∃ m : Int, (k : ℚ) = m * ulp x := by
  have hlog : Int.log 2 |x| - 52 ≤ 0 := by
    rcases (abs_nonneg x).eq_or_lt with hzero | hpos
    · rw [← hzero, Int.log_zero_right]
      decide
    · have h := (Int.lt_zpow_iff_log_lt (b := 2) (by decide) (x := 53) hpos).mp
        (by exact_mod_cast hx)
      omega
  obtain ⟨n, hn⟩ := Int.eq_ofNat_of_zero_le
    (show 0 ≤ -max (Int.log 2 |x| - 52) (-1074) by omega)
  refine ⟨k * 2 ^ n, ?_⟩
  have hulp : ulp x = ((2 : ℚ) ^ n)⁻¹ := by
    rw [ulp, ← zpow_natCast, ← zpow_neg]
    congr 1
    omega
  rw [hulp]
  push_cast
  field_simp

theorem nearest_le {x : ℚ} (hx : |x| < 2 ^ 53) {k : Int} (h : x ≤ k) : nearest x ≤ k := by
  obtain ⟨m, hm⟩ := exists_mul_ulp hx k
  have hle : x / ulp x ≤ m := by
    rw [div_le_iff₀ (ulp_pos x), ← hm]
    exact h
  calc nearest x = roundHalfEven (x / ulp x) * ulp x := rfl
    _ ≤ m * ulp x := by
        have hint : ((roundHalfEven (x / ulp x) : Int) : ℚ) ≤ m := by
          exact_mod_cast roundHalfEven_le hle
        exact mul_le_mul_of_nonneg_right hint (ulp_pos x).le
    _ = k := hm.symm

theorem le_nearest {x : ℚ} (hx : |x| < 2 ^ 53) {k : Int} (h : k ≤ x) : k ≤ nearest x := by
  obtain ⟨m, hm⟩ := exists_mul_ulp hx k
  have hle : (m : ℚ) ≤ x / ulp x := by
    rw [le_div_iff₀ (ulp_pos x), ← hm]
    exact h
  calc (k : ℚ) = m * ulp x := hm
    _ ≤ roundHalfEven (x / ulp x) * ulp x := by
        have hint : (m : ℚ) ≤ (roundHalfEven (x / ulp x) : Int) := by
          exact_mod_cast le_roundHalfEven hle
        exact mul_le_mul_of_nonneg_right hint (ulp_pos x).le
    _ = nearest x := rfl

/-- An integer below `2 ^ 53` is a double. -/
theorem nearest_intCast {k : Int} (hk : |(k : ℚ)| < 2 ^ 53) : nearest k = k :=
  le_antisymm (nearest_le hk le_rfl) (le_nearest hk le_rfl)

/-- **A share of an integer is no larger than the integer**, however the product is kept. -/
theorem Arithmetic.mul_round_le (a : Arithmetic) {n : Int} {r : ℚ} (hn : 0 ≤ n)
    (hlt : n < 2 ^ 53) (hr0 : 0 ≤ r) (hr : r ≤ 1) : a.mul (a.round n) r ≤ n := by
  have hnq : (0 : ℚ) ≤ n := by exact_mod_cast hn
  have habs : |(n : ℚ)| < 2 ^ 53 := by
    rw [abs_of_nonneg hnq]
    exact_mod_cast hlt
  have hle : (n : ℚ) * r ≤ n := mul_le_of_le_one_right hnq hr
  cases a with
  | exact => exact hle
  | double =>
      have hproduct : |(n : ℚ) * r| < 2 ^ 53 := by
        rw [abs_of_nonneg (mul_nonneg hnq hr0)]
        rw [abs_of_nonneg hnq] at habs
        exact hle.trans_lt habs
      show nearest (nearest n * r) ≤ n
      rw [nearest_intCast habs]
      exact nearest_le hproduct hle

/-- The product of 20 and the double of 0.7 is just below 14 and is rounded to it. -/
example : Arithmetic.double.mul 20 (nearest (7 / 10)) = 14 := by decide +kernel

end Doubles
