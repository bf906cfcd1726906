import GridText.Numeral.Digits
import Mathlib.Data.Int.Notation
import Mathlib.Data.List.Basic
import Mathlib.Tactic.Common

/-! # Decimal digits: the canonical text of a whole number

A whole number has one text that consists of digits, reads back as the number and has no zero too
many in front. `IsDecimal` says this of a text without the way in which it is made.

* `ofNat_append`: further digits behind those of a number.
* `isDecimal_iff`, `isSigned_iff`: the canonical text of a natural number, of an integer, is the one
  that is written for it. -/

namespace GridText.Numeral

/-- **The canonical digits of a natural number**: digits of ASCII, at least one, which have this
value; only the single digit zero begins with a zero. -/
structure IsDecimal (n : ℕ) (s : Text) : Prop where
  ne_nil : s ≠ []
  digits : ∀ c ∈ s, c.isDigit = true
  value : Nat.ofDigitChars 10 s 0 = n
  leading : s.head? = some '0' → s = ['0']

/-- **The canonical text of an integer**: its digits, behind a minus sign if it is negative. -/
inductive IsSigned : ℤ → Text → Prop
  | nonneg {n : ℕ} {s : Text} : IsDecimal n s → IsSigned n s
  | neg {n : ℕ} {s : Text} : n ≠ 0 → IsDecimal n s → IsSigned (-n) ('-' :: s)

variable {m n : ℕ} {s : Text} {c : Char}

/-! ### What is written -/

theorem head?_ofNat_ne_zero (h : n ≠ 0) : (ofNat n).head? ≠ some '0' := by
  induction n using Nat.strongRecOn with
  | ind n ih =>
    unfold ofNat
    by_cases hn : n < 10
    · rw [Nat.toDigits_of_lt_base hn, List.head?_cons, Ne, Option.some.injEq,
        Nat.digitChar_eq_zero]
      exact h
    · rw [Nat.toDigits_of_base_le (by decide) (by omega),
        List.head?_append_of_ne_nil _ Nat.toDigits_ne_nil]
      exact ih (n / 10) (by omega) (by omega)

theorem isDecimal_ofNat (n : ℕ) : IsDecimal n (ofNat n) := by
  refine ⟨Nat.toDigits_ne_nil, fun c hc => ?_, Nat.ofDigitChars_ten_toDigits, fun h => ?_⟩
  · exact Nat.isDigit_of_mem_toDigits (by decide) (by decide) hc
  · by_cases hn : n = 0
    · rw [hn]
      rfl
    · exact absurd h (head?_ofNat_ne_zero hn)

/-! ### There is no other text -/

theorem ofNat_of_isDigit (h : c.isDigit = true) :
    c.toNat - '0'.toNat < 10 ∧ ofNat (c.toNat - '0'.toNat) = [c] := by
  have hzero : '0'.toNat = 48 := rfl
  have hnine : '9'.toNat = 57 := rfl
  rw [Char.isDigit_iff_toNat, hzero, hnine] at h
  have hlt : c.toNat - '0'.toNat < 10 := by omega
  have hdigit : (c.toNat - '0'.toNat).digitChar = c := by
    rw [← Char.toNat_inj, Nat.toNat_digitChar_of_lt_ten hlt]
    omega
  exact ⟨hlt, by rw [ofNat, Nat.toDigits_of_lt_base hlt, hdigit]⟩

/-- **Further digits** behind those of a number other than zero. -/
theorem ofNat_append (hm : 0 < m) (hs : ∀ c ∈ s, c.isDigit = true) :
    ofNat m ++ s = ofNat (Nat.ofDigitChars 10 s m) := by
  induction s generalizing m with
  | nil => rw [List.append_nil, Nat.ofDigitChars_nil]
  | cons c s ih =>
    obtain ⟨hc, hs⟩ := List.forall_mem_cons.mp hs
    obtain ⟨hlt, hdigit⟩ := ofNat_of_isDigit hc
    have hone : ofNat m ++ [c] = ofNat (10 * m + (c.toNat - '0'.toNat)) := by
      rw [← hdigit]
      exact Nat.toDigits_append_toDigits (by decide) hm hlt
    rw [List.append_cons, hone, ih (by omega) hs, Nat.ofDigitChars_cons]

/-- **The canonical digits of a natural number are those that are written.** -/
theorem isDecimal_iff : IsDecimal n s ↔ s = ofNat n := by
  refine ⟨fun h => ?_, fun h => h ▸ isDecimal_ofNat n⟩
  obtain ⟨c, rest, rfl⟩ := List.exists_cons_of_ne_nil h.ne_nil
  obtain ⟨hc, hrest⟩ := List.forall_mem_cons.mp h.digits
  obtain ⟨-, hdigit⟩ := ofNat_of_isDigit hc
  have hvalue : Nat.ofDigitChars 10 rest (c.toNat - '0'.toNat) = n := by
    have hvalue := h.value
    rwa [Nat.ofDigitChars_cons, Nat.mul_zero, Nat.zero_add] at hvalue
  by_cases hzero : c = '0'
  · subst hzero
    obtain rfl : rest = [] := (List.cons.inj (h.leading rfl)).2
    rw [← hvalue, Nat.ofDigitChars_nil, hdigit]
  · have hpos : 0 < c.toNat - '0'.toNat := by
      have hle := (Char.isDigit_iff_toNat.mp hc).1
      have hne : c.toNat ≠ '0'.toNat := fun he => hzero (Char.toNat_inj.mp he)
      omega
    rw [← List.singleton_append, ← hdigit, ofNat_append hpos hrest, hvalue]

theorem isSigned_iff {n : ℤ} : IsSigned n s ↔ s = ofInt n := by
  constructor
  · rintro (h | ⟨hne, h⟩)
    · rw [ofInt, if_neg (by omega), isDecimal_iff.mp h, Int.natAbs_natCast]
    · rw [ofInt, if_pos (by omega), isDecimal_iff.mp h, Int.natAbs_neg, Int.natAbs_natCast]
  · rintro rfl
    unfold ofInt
    split_ifs with hneg
    · have h := IsSigned.neg (Int.natAbs_ne_zero.mpr (Int.ne_of_lt hneg)) (isDecimal_ofNat n.natAbs)
      rwa [Int.ofNat_natAbs_of_nonpos (Int.le_of_lt hneg), Int.neg_neg] at h
    · have h := IsSigned.nonneg (isDecimal_ofNat n.natAbs)
      rwa [Int.natAbs_of_nonneg (Int.not_lt.mp hneg)] at h

end GridText.Numeral
