import GridText.Numeral.Power

/-!
# Binary floating point numbers of 64 bits

A finite number is `mantissa * 2 ^ exponent` with a sign; the mantissa has at most 53 bits and the
exponent lies between -1074 and 971.

* `Binary64.ofBits`: the number of a word of 64 bits: a sign, 11 bits of exponent, 52 of fraction.
* `Binary64.toRat?`: the value of a finite number.
* `Binary64.nearest?`: the number nearest to a rational, of two nearest ones the one with the even
  mantissa; none if the rational lies beyond the finite numbers.
-/

namespace GridText

/-- A **floating point number** of 64 bits. -/
inductive Binary64 where
  | nan
  | infinite (negative : Bool)
  | finite (negative : Bool) (mantissa : Nat) (exponent : Int)
  deriving DecidableEq, Repr

namespace Binary64

open Numeral

/-- The least exponent. -/
def minExponent : Int := -1074

/-- The greatest exponent. -/
def maxExponent : Int := 971

/-- The **number of a word.** The least biased exponent, 0, has no hidden leading bit. -/
def ofBits (word : Nat) : Binary64 :=
  let negative := word / twoTo 63 % 2 == 1
  let biased : Nat := word / twoTo 52 % twoTo 11
  let fraction : Nat := word % twoTo 52
  if biased = 2047 then if fraction = 0 then infinite negative else nan
  else if biased = 0 then finite negative fraction minExponent
  else finite negative (twoTo 52 + fraction) ((biased : Int) - 1075)

/-- The number `mantissa * 2 ^ exponent` with a sign. -/
def dyadic (negative : Bool) (mantissa : Nat) (exponent : Int) : Rat :=
  let magnitude : Int := mantissa * twoTo exponent
  mkRat (if negative then -magnitude else magnitude) (twoTo (-exponent))

/-- The value of a finite number. -/
def toRat? : Binary64 → Option Rat
  | finite negative mantissa exponent => some (dyadic negative mantissa exponent)
  | _ => none

/-! ### The nearest number to a rational -/

/-- A quotient rounded to the nearest natural number, a half going to the even neighbour. -/
def divNearest (n d : Nat) : Nat :=
  let quotient := n / d
  let double := 2 * (n % d)
  if double < d ∨ (double = d ∧ quotient % 2 = 0) then quotient else quotient + 1

/-- The greatest `e` with `2 ^ e ≤ n / d`, for positive `n` and `d`. -/
def floorLog2 (n d : Nat) : Int :=
  let e : Int := (Nat.log2 n : Int) - Nat.log2 d
  if n * twoTo (-e) < d * twoTo e then e - 1 else e

/-- The **number nearest to a rational.** The exponent leaves the mantissa 53 bits, or fewer at the
least exponent; a mantissa that rounds up to 54 bits is halved. -/
def nearest? (r : Rat) : Option Binary64 :=
  let n := r.num.natAbs
  let exponent := if n = 0 then minExponent else max (floorLog2 n r.den - 52) minExponent
  let mantissa := divNearest (n * twoTo (-exponent)) (r.den * twoTo exponent)
  let (mantissa, exponent) :=
    if mantissa = twoTo 53 then (twoTo 52, exponent + 1) else (mantissa, exponent)
  if exponent > maxExponent then none else some (finite (r.num < 0) mantissa exponent)

end Binary64

end GridText
