import GridText.Numeral.Binary64
import Mathlib.Algebra.Order.Field.Power
import Mathlib.Data.Rat.Lemmas
import Mathlib.Tactic.FieldSimp
import Mathlib.Tactic.Linarith
import Mathlib.Tactic.NormNum
import Mathlib.Tactic.Positivity
import Mathlib.Tactic.Ring

/-! # Binary floating point numbers: how far they reach

A rational has a nearest floating point number unless it lies beyond all finite ones. The bound is
in the middle between the greatest finite number and the number that would be the next one; in the
middle itself the even mantissa is the one of the next.

* `floorLog2_spec`: the binary magnitude of a quotient.
* `le_divNearest_iff`: when a quotient is rounded up to an even number.
* `lt_unit`, `unit_le`, `unitMantissa_eq_iff`: the unit of the mantissa, and when it is full.
* `nearest?_eq_none_iff`: which rationals have no nearest number. -/

namespace GridText

open Numeral

variable {n d k : ℕ} {e : ℤ}

/-! ### Scaled quotients -/

namespace Numeral

theorem cast_twoTo (e : ℤ) : (twoTo e : ℚ) = 2 ^ e * twoTo (-e) := by
  rcases le_total 0 e with h | h
  · obtain ⟨m, rfl⟩ := Int.eq_ofNat_of_zero_le h
    simp [twoTo]
  · obtain ⟨m, hm⟩ := Int.eq_ofNat_of_zero_le (Int.neg_nonneg_of_nonpos h)
    obtain rfl : e = -(m : ℤ) := by omega
    simp [twoTo]

theorem mul_twoTo_le_iff (hd : 0 < d) (a b : ℕ) :
    a * (d * twoTo e) ≤ b * (n * twoTo (-e)) ↔ (a : ℚ) * 2 ^ e ≤ b * (n / d) := by
  have hpow : (0 : ℚ) < twoTo (-e) := by exact_mod_cast twoTo_pos (-e)
  have hd' : (0 : ℚ) < d := by exact_mod_cast hd
  have hleft : (a : ℚ) * (d * (2 ^ e * twoTo (-e))) = a * 2 ^ e * (d * twoTo (-e)) := by ring
  have hright : (b : ℚ) * (n * twoTo (-e)) = b * (n / d) * (d * twoTo (-e)) := by
    field_simp
  rw [← @Nat.cast_le ℚ]
  push_cast
  rw [cast_twoTo e, hleft, hright, mul_le_mul_iff_left₀ (mul_pos hd' hpow)]

theorem lt_mul_twoTo_iff (hd : 0 < d) (a b : ℕ) :
    b * (n * twoTo (-e)) < a * (d * twoTo e) ↔ (b : ℚ) * (n / d) < a * 2 ^ e := by
  rw [← not_le, mul_twoTo_le_iff hd, not_le]

end Numeral

namespace Binary64

/-! ### The magnitude of a quotient -/

/-- **The binary magnitude of a quotient.** The logarithms of its parts tell it up to one. -/
theorem floorLog2_spec (hn : n ≠ 0) (hd : 0 < d) :
    (2 : ℚ) ^ floorLog2 n d ≤ n / d ∧ (n : ℚ) / d < 2 ^ (floorLog2 n d + 1) := by
  have hd' : (0 : ℚ) < d := by exact_mod_cast hd
  have hn1 : (2 : ℚ) ^ (Nat.log2 n : ℤ) ≤ n := by exact_mod_cast Nat.log2_self_le hn
  have hn2 : (n : ℚ) < 2 ^ ((Nat.log2 n : ℤ) + 1) := by exact_mod_cast @Nat.lt_log2_self n
  have hd1 : (2 : ℚ) ^ (Nat.log2 d : ℤ) ≤ d := by exact_mod_cast Nat.log2_self_le hd.ne'
  have hd2 : (d : ℚ) < 2 ^ ((Nat.log2 d : ℤ) + 1) := by exact_mod_cast @Nat.lt_log2_self d
  obtain ⟨e, he⟩ : ∃ e : ℤ, e = (Nat.log2 n : ℤ) - Nat.log2 d := ⟨_, rfl⟩
  have hfloor : floorLog2 n d = if n * twoTo (-e) < d * twoTo e then e - 1 else e := by
    rw [he]
    rfl
  have hlow : (2 : ℚ) ^ (e - 1) ≤ n / d := by
    rw [le_div_iff₀ hd']
    calc (2 : ℚ) ^ (e - 1) * d ≤ 2 ^ (e - 1) * 2 ^ ((Nat.log2 d : ℤ) + 1) := by gcongr
      _ = 2 ^ (Nat.log2 n : ℤ) := by
          rw [← zpow_add₀ two_ne_zero]
          congr 1
          omega
      _ ≤ n := hn1
  have hhigh : (n : ℚ) / d < 2 ^ (e + 1) := by
    rw [div_lt_iff₀ hd']
    calc (n : ℚ) < 2 ^ ((Nat.log2 n : ℤ) + 1) := hn2
      _ = 2 ^ (e + 1) * 2 ^ (Nat.log2 d : ℤ) := by
          rw [← zpow_add₀ two_ne_zero]
          congr 1
          omega
      _ ≤ 2 ^ (e + 1) * d := by gcongr
  have htest : n * twoTo (-e) < d * twoTo e ↔ (n : ℚ) / d < 2 ^ e := by
    simpa using @lt_mul_twoTo_iff n d e hd 1 1
  rw [hfloor]
  split_ifs with h
  · rw [Int.sub_add_cancel]
    exact ⟨hlow, htest.mp h⟩
  · exact ⟨not_lt.mp (mt htest.mpr h), hhigh⟩

/-! ### Rounding a quotient -/

theorem divNearest_eq (n d : ℕ) : divNearest n d =
    if 2 * (n % d) < d ∨ (2 * (n % d) = d ∧ n / d % 2 = 0) then n / d else n / d + 1 := rfl

/-- **A quotient is rounded up to an even number** from a half below it on. -/
theorem le_divNearest_iff (hd : 0 < d) (heven : k % 2 = 0) :
    k ≤ divNearest n d ↔ 2 * (k * d) ≤ 2 * n + d := by
  have hn : d * (n / d) + n % d = n := Nat.div_add_mod n d
  have hrest : n % d < d := Nat.mod_lt n hd
  rw [divNearest_eq]
  generalize n / d = quotient at hn ⊢
  generalize n % d = rest at hn hrest ⊢
  subst hn
  rcases Nat.lt_trichotomy k (quotient + 1) with hlt | rfl | hgt
  · have hle : k * d ≤ d * quotient := by
      rw [Nat.mul_comm d]
      exact Nat.mul_le_mul_right d (Nat.le_of_lt_succ hlt)
    split_ifs <;> omega
  · -- the number below is odd, so that a half is rounded up
    have hmul : (quotient + 1) * d = d * quotient + d := by ring
    rw [hmul]
    split_ifs <;> omega
  · have hle : (quotient + 2) * d ≤ k * d := Nat.mul_le_mul_right d hgt
    have hmul : (quotient + 2) * d = d * quotient + 2 * d := by ring
    split_ifs <;> omega

theorem divNearest_le (h : n < k * d) : divNearest n d ≤ k := by
  have hquotient : n / d < k := Nat.div_lt_of_lt_mul (by rwa [Nat.mul_comm])
  rw [divNearest_eq]
  split_ifs <;> omega

/-! ### The finite numbers -/

/-- The middle between the greatest finite number and the number that would be the next one. -/
def overflowThreshold : ℚ := (2 ^ 53 - 1 / 2) * 2 ^ 971

theorem abs_eq_div (r : ℚ) : |r| = (r.num.natAbs : ℚ) / r.den := by
  have hden : (0 : ℚ) < r.den := by exact_mod_cast r.den_pos
  conv_lhs => rw [← Rat.num_div_den r]
  rw [abs_div, abs_of_pos hden, ← Int.cast_abs, Int.abs_eq_natAbs, Int.cast_natCast]

/-- The exponent of the number nearest to a quotient, before it is rounded. -/
def unitExponent (n d : ℕ) : ℤ :=
  if n = 0 then minExponent else max (floorLog2 n d - 52) minExponent

/-- The mantissa of the number nearest to a quotient, before it is halved. -/
def unitMantissa (n d : ℕ) : ℕ :=
  divNearest (n * twoTo (-unitExponent n d)) (d * twoTo (unitExponent n d))

/-- There is no nearest number when the exponent is too great, before a mantissa of 54 bits is
halved or by that. -/
theorem nearest?_eq_none_iff_unit {r : ℚ} : nearest? r = none ↔
    971 < unitExponent r.num.natAbs r.den ∨
      (unitExponent r.num.natAbs r.den = 971 ∧ unitMantissa r.num.natAbs r.den = 2 ^ 53) := by
  obtain ⟨e, he⟩ : ∃ e, e = unitExponent r.num.natAbs r.den := ⟨_, rfl⟩
  obtain ⟨m, hm⟩ : ∃ m, m = unitMantissa r.num.natAbs r.den := ⟨_, rfl⟩
  obtain ⟨rounded, hrounded⟩ : ∃ rounded : ℕ × ℤ,
      rounded = if m = twoTo 53 then (twoTo 52, e + 1) else (m, e) := ⟨_, rfl⟩
  have hresult : nearest? r = if rounded.2 > maxExponent then none
      else some (finite (r.num < 0) rounded.1 rounded.2) := by
    rw [hrounded, hm, he]
    rfl
  have hbits : twoTo 53 = 2 ^ 53 := rfl
  rw [← he, ← hm, hresult, hrounded, hbits]
  unfold maxExponent
  by_cases hcarry : m = 2 ^ 53
  · rw [if_pos hcarry]
    simp only [hcarry, ite_eq_left_iff, reduceCtorEq, imp_false, not_not, and_true]
    omega
  · rw [if_neg hcarry]
    simp only [hcarry, ite_eq_left_iff, reduceCtorEq, imp_false, not_not, and_false, or_false]

theorem lt_unit (n : ℕ) (hd : 0 < d) : (n : ℚ) / d < 2 ^ (53 + unitExponent n d) := by
  by_cases hn : n = 0
  · rw [hn, Nat.cast_zero, zero_div]
    exact zpow_pos two_pos _
  · have hle : floorLog2 n d + 1 ≤ 53 + unitExponent n d := by
      rw [unitExponent, if_neg hn]
      omega
    exact (floorLog2_spec hn hd).2.trans_le (zpow_le_zpow_right₀ one_le_two hle)

theorem unit_le (hd : 0 < d) (hunit : minExponent < unitExponent n d) :
    2 ^ (52 + unitExponent n d) ≤ (n : ℚ) / d := by
  unfold unitExponent at hunit ⊢
  split_ifs at hunit ⊢ with hn
  · exact absurd hunit (lt_irrefl _)
  · have hle : 52 + max (floorLog2 n d - 52) minExponent ≤ floorLog2 n d := by omega
    exact (zpow_le_zpow_right₀ one_le_two hle).trans (floorLog2_spec hn hd).1

/-- **The mantissa is rounded up to 54 bits** from half a unit below them on. -/
theorem unitMantissa_eq_iff (hd : 0 < d) :
    unitMantissa n d = 2 ^ 53 ↔ (2 ^ 54 - 1) * 2 ^ unitExponent n d ≤ 2 * ((n : ℚ) / d) := by
  obtain ⟨e, he⟩ : ∃ e, e = unitExponent n d := ⟨_, rfl⟩
  have hscaled : 0 < d * twoTo e := Nat.mul_pos hd (twoTo_pos e)
  have hbits : (n : ℚ) / d < 2 ^ 53 * 2 ^ e := by
    have hlt := lt_unit n hd
    rwa [← he, zpow_add₀ two_ne_zero] at hlt
  have hbound : n * twoTo (-e) < 2 ^ 53 * (d * twoTo e) := by
    have hiff := @lt_mul_twoTo_iff n d e hd (2 ^ 53) 1
    rw [Nat.one_mul, Nat.cast_one, one_mul] at hiff
    exact hiff.mpr (by exact_mod_cast hbits)
  have hround : 2 ^ 53 ≤ divNearest (n * twoTo (-e)) (d * twoTo e) ↔
      (2 ^ 54 - 1) * (d * twoTo e) ≤ 2 * (n * twoTo (-e)) := by
    rw [le_divNearest_iff hscaled rfl]
    omega
  have hunit : unitMantissa n d = divNearest (n * twoTo (-e)) (d * twoTo e) := by
    rw [he, unitMantissa]
  rw [hunit, ← he, (divNearest_le hbound).ge_iff_eq.symm.trans hround, mul_twoTo_le_iff hd]
  norm_num

/-- **A rational has no nearest number** exactly when it lies beyond the finite ones. -/
theorem nearest?_eq_none_iff {r : ℚ} : nearest? r = none ↔ overflowThreshold ≤ |r| := by
  rw [nearest?_eq_none_iff_unit, abs_eq_div]
  have hd := r.den_pos
  generalize r.num.natAbs = n
  generalize r.den = d at hd ⊢
  obtain ⟨u, hu⟩ : ∃ u : ℚ, u = 2 ^ (971 : ℤ) := ⟨_, rfl⟩
  have hpos : 0 < u := hu ▸ zpow_pos two_pos 971
  have hthreshold : overflowThreshold = (2 ^ 53 - 1 / 2) * u := by
    rw [overflowThreshold, hu]
    rfl
  rw [hthreshold]
  rcases lt_trichotomy (unitExponent n d) 971 with hlt | heq | hgt
  · have hsmall : (n : ℚ) / d < 2 ^ 52 * u := by
      calc (n : ℚ) / d < 2 ^ (53 + unitExponent n d) := lt_unit n hd
        _ ≤ 2 ^ ((52 : ℤ) + 971) := zpow_le_zpow_right₀ one_le_two (by omega)
        _ = 2 ^ 52 * u := by
            rw [zpow_add₀ two_ne_zero, ← hu]
            rfl
    have hbelow : (n : ℚ) / d < (2 ^ 53 - 1 / 2) * u := by linarith only [hsmall, hpos]
    exact iff_of_false (by omega) (not_le.mpr hbelow)
  · rw [unitMantissa_eq_iff hd, heq, ← hu]
    constructor
    · rintro (h | ⟨-, h⟩)
      · exact absurd h (lt_irrefl _)
      · linarith only [h]
    · exact fun h => Or.inr ⟨rfl, by linarith only [h]⟩
  · have hleast : minExponent < unitExponent n d := by
      unfold minExponent
      omega
    have hgreat : 2 ^ 53 * u ≤ (n : ℚ) / d := by
      calc 2 ^ 53 * u = 2 ^ ((53 : ℤ) + 971) := by
            rw [zpow_add₀ two_ne_zero, ← hu]
            rfl
        _ ≤ 2 ^ (52 + unitExponent n d) := zpow_le_zpow_right₀ one_le_two (by omega)
        _ ≤ n / d := unit_le hd hleast
    exact iff_of_true (Or.inl hgt) (by linarith only [hgreat, hpos])

end Binary64

end GridText
