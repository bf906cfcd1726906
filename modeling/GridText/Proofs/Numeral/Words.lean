import GridText.Numeral.Shortest
import GridText.Proofs.Numeral.Range

/-! # Binary floating point numbers: the numbers of words

A word of 64 bits is a sign, eleven bits of exponent and 52 bits of fraction. `IsValue` says which
rational number it stands for, and this is the value of the floating point number that is read from
it.

* `dyadic_eq`: a mantissa and an exponent of either sign as a rational number.
* `ofBits_word`: the parts of a word; `toRat?_ofBits`: its value.
* `write_of_toRat?`: a number that is whole is written as an integer. -/

namespace GridText.Binary64

open Numeral

/-- **The number of a word.** The leading bit in front of the fraction is not stored; it is one,
unless the biased exponent is zero. The greatest biased exponent has no number. -/
inductive IsValue : ℕ → ℚ → Prop
  | subnormal {sign fraction : ℕ} : sign < 2 → fraction < 2 ^ 52 →
      IsValue (sign * 2 ^ 63 + fraction) ((-1) ^ sign * (fraction / 2 ^ 52) * 2 ^ (-1022 : ℤ))
  | normal {sign biased fraction : ℕ} : sign < 2 → 0 < biased → biased < 2047 →
      fraction < 2 ^ 52 → IsValue (sign * 2 ^ 63 + biased * 2 ^ 52 + fraction)
        ((-1) ^ sign * (1 + fraction / 2 ^ 52) * 2 ^ ((biased : ℤ) - 1023))

theorem dyadic_eq (negative : Bool) (mantissa : ℕ) (exponent : ℤ) :
    dyadic negative mantissa exponent = (-1) ^ negative.toNat * mantissa * 2 ^ exponent := by
  have hpow : (twoTo (-exponent) : ℚ) ≠ 0 := by exact_mod_cast (twoTo_pos (-exponent)).ne'
  have hmagnitude : ((mantissa * twoTo exponent : ℤ) : ℚ) / twoTo (-exponent) =
      mantissa * 2 ^ exponent := by
    rw [div_eq_iff hpow]
    push_cast
    rw [cast_twoTo exponent, mul_assoc]
  rw [dyadic, Rat.mkRat_eq_div]
  cases negative with
  | true =>
    rw [if_pos rfl, Int.cast_neg, neg_div, hmagnitude]
    simp
  | false =>
    rw [if_neg Bool.false_ne_true, hmagnitude]
    simp

theorem ofBits_word {sign biased fraction : ℕ} (hs : sign < 2) (hb : biased < 2047)
    (hf : fraction < 2 ^ 52) : ofBits (sign * 2 ^ 63 + biased * 2 ^ 52 + fraction) =
      if biased = 0 then finite (sign == 1) fraction minExponent
      else finite (sign == 1) (2 ^ 52 + fraction) (biased - 1075) := by
  obtain ⟨word, hword⟩ : ∃ word, word = sign * 2 ^ 63 + biased * 2 ^ 52 + fraction := ⟨_, rfl⟩
  have h11 : twoTo 11 = 2 ^ 11 := rfl
  have h52 : twoTo 52 = 2 ^ 52 := rfl
  have h63 : twoTo 63 = 2 ^ 63 := rfl
  have hsign : word / 2 ^ 63 % 2 = sign := by omega
  have hbiased : word / 2 ^ 52 % 2 ^ 11 = biased := by omega
  have hfraction : word % 2 ^ 52 = fraction := by omega
  rw [← hword, ofBits]
  simp only [h11, h52, h63, hsign, hbiased, hfraction, if_neg hb.ne]

theorem div_mul_zpow (mantissa : ℚ) (exponent : ℤ) :
    mantissa / 2 ^ 52 * 2 ^ (exponent + 52) = mantissa * 2 ^ exponent := by
  have hpow : (2 : ℚ) ^ (exponent + 52) = 2 ^ exponent * 2 ^ 52 := zpow_add₀ two_ne_zero _ _
  rw [hpow]
  field_simp

/-- **The value of a word** is its number. -/
theorem toRat?_ofBits {word : ℕ} {r : ℚ} (h : IsValue word r) : (ofBits word).toRat? = some r := by
  have hsign : ∀ sign < 2, (sign == 1).toNat = sign := by decide
  cases h with
  | @subnormal sign fraction hs hf =>
    have hword := ofBits_word hs (by decide : 0 < 2047) hf
    rw [if_pos rfl, Nat.zero_mul, Nat.add_zero] at hword
    have hexponent : (-1022 : ℤ) = minExponent + 52 := rfl
    rw [hword, toRat?, dyadic_eq, hsign sign hs, hexponent, mul_assoc, mul_assoc, div_mul_zpow]
  | @normal sign biased fraction hs hpos hb hf =>
    have hmantissa : (1 + fraction / 2 ^ 52 : ℚ) = (2 ^ 52 + fraction : ℕ) / 2 ^ 52 := by
      rw [Nat.cast_add, Nat.cast_pow, Nat.cast_ofNat, add_div, div_self (by positivity)]
    have hexponent : (biased : ℤ) - 1023 = biased - 1075 + 52 := by omega
    rw [ofBits_word hs hb hf, if_neg hpos.ne', toRat?, dyadic_eq, hsign sign hs, hmantissa,
      hexponent, mul_assoc, mul_assoc, div_mul_zpow]

/-- **A number that is whole is written as an integer.** -/
theorem write_of_toRat? {x : Binary64} {n : ℤ} (h : x.toRat? = some (n : ℚ)) :
    x.write = Numeral.ofInt n := by
  cases x with
  | nan | infinite => cases h
  | finite negative mantissa exponent =>
    have hvalue : dyadic negative mantissa exponent = n := Option.some.inj h
    unfold write
    simp only [hvalue]
    rw [if_pos (Rat.den_intCast n), Rat.num_intCast]

end GridText.Binary64
