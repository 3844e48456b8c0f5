/-
FlyDesk/Lib/DecimalValue.lean

The value of a decimal number, and what rounding does to it.

`Nearest x n` says that the integer `n` is nearest to `x`, and even if another
is as near.  There is one such integer for every `x`, and a larger `x` has no
smaller one.  `value_quantize` puts rounding in these terms, so rounding keeps
the order of numbers (`quantize_mono`) and changes the value of those alone
that have more places than are kept (`value_quantize_iff`).
-/
import FlyDesk.Lib.Decimal
import Mathlib.Algebra.Order.Field.Basic
import Mathlib.Algebra.Order.Ring.Rat
import Mathlib.Tactic.Linarith
import Mathlib.Tactic.Ring

namespace Lib

/-! ### The nearest integer -/

/-- `n` is nearest to `x`, and even if `x` is half way between two. -/
structure Nearest (x : ℚ) (n : ℤ) : Prop where
  le : |x - n| ≤ 1 / 2
  even : |x - n| = 1 / 2 → Even n

theorem Nearest.neg {x : ℚ} {n : ℤ} (h : Nearest x n) : Nearest (-x) (-n) := by
  have habs : |-x - ((-n : ℤ) : ℚ)| = |x - n| := by
    rw [← abs_neg]
    congr 1
    push_cast
    ring
  exact ⟨habs ▸ h.le, fun he => (h.even (habs ▸ he)).neg⟩

/-- **A larger number has no smaller nearest integer.** -/
theorem Nearest.mono {x y : ℚ} {m n : ℤ} (hx : Nearest x m) (hy : Nearest y n)
    (h : x ≤ y) : m ≤ n := by
  by_contra hlt
  have hmn : (n : ℚ) + 1 ≤ m := by exact_mod_cast not_le.mp hlt
  obtain ⟨hx1, hx2⟩ := abs_le.mp hx.le
  obtain ⟨hy1, hy2⟩ := abs_le.mp hy.le
  -- both are half way between `n` and its successor, so both integers are even
  have hm : (m : ℚ) = n + 1 := by linarith
  have hxm : |x - m| = 1 / 2 := by
    rw [abs_of_nonpos (by linarith)]
    linarith
  have hyn : |y - n| = 1 / 2 := by
    rw [abs_of_nonneg (by linarith)]
    linarith
  have hm' : m = n + 1 := by exact_mod_cast hm
  obtain ⟨j, hj⟩ := hx.even hxm
  obtain ⟨k, hk⟩ := hy.even hyn
  omega

theorem Nearest.unique {x : ℚ} {m n : ℤ} (hm : Nearest x m) (hn : Nearest x n) : m = n :=
  le_antisymm (hm.mono hn le_rfl) (hn.mono hm le_rfl)

/-- An integer is nearest to itself. -/
theorem nearest_self (n : ℤ) : Nearest n n where
  le := by norm_num
  even := by
    intro h
    norm_num at h

theorem Nearest.of_lt {x : ℚ} {n : ℤ} (h : |x - n| < 1 / 2) : Nearest x n where
  le := h.le
  even := fun he => absurd he h.ne

theorem Nearest.of_eq {x : ℚ} {n : ℤ} (h : |x - n| = 1 / 2) (he : Even n) : Nearest x n where
  le := h.le
  even := fun _ => he

namespace Decimal

/-- `n / m` rounded half to even is nearest to the quotient. -/
theorem nearest_divHalfEven (n : ℕ) {m : ℕ} (hm : 0 < m) :
    Nearest ((n : ℚ) / m) (divHalfEven n m) := by
  have hmq : (0 : ℚ) < m := by exact_mod_cast hm
  have hn : (n : ℚ) = m * (n / m : ℕ) + (n % m : ℕ) := by exact_mod_cast (Nat.div_add_mod n m).symm
  have hx : (n : ℚ) / m = (n / m : ℕ) + (n % m : ℕ) / (m : ℚ) := by
    rw [← mul_div_cancel_left₀ ((n / m : ℕ) : ℚ) hmq.ne', ← add_div, ← hn]
  have hr : (0 : ℚ) ≤ (n % m : ℕ) / (m : ℚ) := by positivity
  rw [hx]
  generalize hq : n / m = q
  rw [divHalfEven, hq]
  rcases lt_trichotomy (2 * (n % m)) m with h | h | h
  · -- the rest is less than a half
    have hf : ((n % m : ℕ) : ℚ) / m < 1 / 2 := by
      rw [div_lt_div_iff₀ hmq (by norm_num)]
      exact_mod_cast (by omega : n % m * 2 < 1 * m)
    rw [if_pos h]
    refine .of_lt ?_
    rw [Int.cast_natCast, add_sub_cancel_left, abs_of_nonneg hr]
    exact hf
  · -- a tie: to the even neighbour
    have hf : ((n % m : ℕ) : ℚ) / m = 1 / 2 := by
      rw [div_eq_div_iff hmq.ne' (by norm_num)]
      exact_mod_cast (by omega : n % m * 2 = 1 * m)
    rw [if_neg (by omega), if_neg (by omega)]
    by_cases he : q % 2 = 0
    · rw [if_pos he]
      refine .of_eq ?_ (by exact_mod_cast Nat.even_iff.mpr he)
      rw [hf, Int.cast_natCast, add_sub_cancel_left, abs_of_nonneg (by norm_num)]
    · rw [if_neg he]
      have hodd : Odd q := Nat.not_even_iff_odd.mp (Nat.even_iff.not.mpr he)
      refine .of_eq ?_ (by exact_mod_cast hodd.add_one)
      rw [hf]
      push_cast
      rw [show (q : ℚ) + 1 / 2 - (q + 1) = -(1 / 2) by ring, abs_neg, abs_of_nonneg (by norm_num)]
  · -- more than a half: up
    have hf : 1 / 2 < ((n % m : ℕ) : ℚ) / m := by
      rw [div_lt_div_iff₀ (by norm_num) hmq]
      exact_mod_cast (by omega : 1 * m < n % m * 2)
    have hone : ((n % m : ℕ) : ℚ) / m < 1 := by
      rw [div_lt_one hmq]
      exact_mod_cast Nat.mod_lt n hm
    rw [if_neg (by omega), if_pos h]
    refine .of_lt ?_
    rw [abs_lt]
    push_cast
    constructor <;> linarith

/-- The number a decimal stands for. -/
def value (d : Decimal) : ℚ :=
  (if d.sign then -1 else 1) * d.coefficient * 10 ^ d.exponent

/-- The size of the number. -/
def magnitude (d : Decimal) : ℚ := d.coefficient * 10 ^ d.exponent

theorem value_eq (d : Decimal) : d.value = if d.sign then -d.magnitude else d.magnitude := by
  rw [value, magnitude]
  split
  · rw [neg_one_mul, neg_mul]
  · rw [one_mul]

/-- A rounded number is a whole number of units of its last place, the
nearest. -/
theorem magnitude_quantize (p : ℕ) (d : Decimal) :
    ∃ n : ℤ, (quantize p d).magnitude * 10 ^ p = n ∧ Nearest (d.magnitude * 10 ^ p) n := by
  have hten : (10 : ℚ) ≠ 0 := by norm_num
  have hq : (quantize p d).magnitude * 10 ^ p = (quantize p d).coefficient := by
    rw [magnitude, exponent_quantize, mul_assoc, ← zpow_natCast, ← zpow_add₀ hten,
      neg_add_cancel, zpow_zero, mul_one]
  refine ⟨(quantize p d).coefficient, by exact_mod_cast hq, ?_⟩
  have hd : d.magnitude * 10 ^ p = d.coefficient * 10 ^ (d.exponent + p) := by
    rw [magnitude, mul_assoc, ← zpow_natCast, ← zpow_add₀ hten]
  rw [hd, quantize]
  show Nearest _ ((if _ then _ else _ : ℕ) : ℤ)
  by_cases he : -(p : ℤ) ≤ d.exponent
  · -- more places: the number is one of the new ones
    obtain ⟨k, hk⟩ := Int.eq_ofNat_of_zero_le (show 0 ≤ d.exponent + p by omega)
    rw [if_pos he, hk, zpow_natCast, Int.toNat_natCast]
    exact_mod_cast nearest_self ((d.coefficient * 10 ^ k : ℕ) : ℤ)
  · obtain ⟨k, hk⟩ := Int.eq_ofNat_of_zero_le (show 0 ≤ -(p : ℤ) - d.exponent by omega)
    have hneg : d.exponent + p = -(k : ℤ) := by omega
    rw [if_neg he, hk, hneg, zpow_neg, zpow_natCast, Int.toNat_natCast, ← div_eq_mul_inv]
    exact_mod_cast nearest_divHalfEven d.coefficient (Nat.pow_pos (by norm_num : 0 < 10))

/-- **Rounding, in terms of values.** -/
theorem value_quantize (p : ℕ) (d : Decimal) :
    ∃ n : ℤ, (quantize p d).value * 10 ^ p = n ∧ Nearest (d.value * 10 ^ p) n := by
  obtain ⟨n, hn, hnear⟩ := magnitude_quantize p d
  rw [value_eq, value_eq, show (quantize p d).sign = d.sign from rfl]
  by_cases hs : d.sign = true
  · rw [if_pos hs, if_pos hs, neg_mul, neg_mul]
    refine ⟨-n, ?_, hnear.neg⟩
    rw [hn, Int.cast_neg]
  · rw [if_neg hs, if_neg hs]
    exact ⟨n, hn, hnear⟩

/-- **Rounding keeps the order of numbers.** -/
theorem quantize_mono (p : ℕ) {a b : Decimal} (h : a.value ≤ b.value) :
    (quantize p a).value ≤ (quantize p b).value := by
  have hpos : (0 : ℚ) < 10 ^ p := by positivity
  obtain ⟨m, hm, hma⟩ := value_quantize p a
  obtain ⟨n, hn, hnb⟩ := value_quantize p b
  have hle : m ≤ n := hma.mono hnb (mul_le_mul_of_nonneg_right h hpos.le)
  refine le_of_mul_le_mul_right ?_ hpos
  rw [hm, hn]
  exact_mod_cast hle

/-- **Rounding keeps the value of a number just if it has no further places.** -/
theorem value_quantize_iff (p : ℕ) (d : Decimal) :
    (quantize p d).value = d.value ↔ ∃ k : ℤ, d.value * 10 ^ p = k := by
  have hpos : (0 : ℚ) < 10 ^ p := by positivity
  obtain ⟨n, hn, hnear⟩ := value_quantize p d
  constructor
  · intro h
    exact ⟨n, by rw [← h, hn]⟩
  · rintro ⟨k, hk⟩
    rw [hk] at hnear
    refine mul_right_cancel₀ hpos.ne' ?_
    rw [hn, hk, hnear.unique (nearest_self k)]

end Decimal

end Lib
