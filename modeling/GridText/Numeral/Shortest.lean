import GridText.Numeral.Binary64
import GridText.Numeral.Digits

/-!
# The shortest decimal text of a floating point number

Of all decimals that are nearer to a number than to any other one, those with the fewest digits are
taken, and of these the nearest. Whole numbers are written with all their digits and no point.

* `Binary64.rounds`: a decimal lies in the interval of what rounds to a number. Its ends belong to
  it exactly when the mantissa is even; below a power of two the gap is half as wide.
* `Binary64.floorLog10`: the decimal magnitude of a quotient.
* `Binary64.neighbours`: the two decimals next to a number on a decimal grid, the nearer one first.
* `Binary64.shortest`: the first neighbour that rounds to the number, on grids of 1, 2, … 17 digits.
* `Decimals.write`: where the point goes, and when an exponent is written instead.
* `Binary64.write`: the text of a number.
-/

namespace GridText

/-- The decimal `digits * 10 ^ exponent`. -/
structure Decimals where
  digits : Nat
  exponent : Int
  deriving DecidableEq, Repr

namespace Decimals

/-- The decimal without zeros at its end. -/
def strip (d : Decimals) : Decimals :=
  let zeros := ((Numeral.ofNat d.digits).reverse.takeWhile (· = '0')).length
  ⟨d.digits / Numeral.tenTo zeros, d.exponent + zeros⟩

/-- The **text of a decimal.** The point stands among the digits or behind them up to the 16th
place, or in front of them after at most three zeros. Otherwise one digit stands in front of the
point and an exponent of two digits or more, with its sign, follows. -/
def write (d : Decimals) : Text :=
  let digits := Numeral.ofNat d.digits
  let point : Int := digits.length + d.exponent
  if -4 < point ∧ point ≤ 16 then Numeral.pointed digits point
  else
    let tail := digits.drop 1
    let exponent := point - 1
    let places := Numeral.ofNat exponent.natAbs
    digits.take 1 ++ (if tail = [] then [] else '.' :: tail) ++
      'e' :: (if exponent < 0 then '-' else '+') :: Numeral.zeros (2 - places.length) ++ places

end Decimals

namespace Binary64

open Numeral

/-- Comparing `a * 10 ^ k` with `b * 2 ^ q`, both multiplied up to whole numbers. -/
def compareScaled (a : Nat) (k : Int) (b : Nat) (q : Int) : Ordering :=
  compare (a * tenTo k * twoTo (-q)) (b * twoTo q * tenTo (-k))

/-- A **decimal rounds to the number** `mantissa * 2 ^ exponent`. In quarters of its last place the
number reaches from `4 * mantissa - 2`, or `- 1` below a power of two, to `4 * mantissa + 2`. -/
def rounds (mantissa : Nat) (exponent : Int) (d : Decimals) : Bool :=
  let down := if mantissa = twoTo 52 ∧ exponent > minExponent then 1 else 2
  let low := compareScaled d.digits d.exponent (4 * mantissa - down) (exponent - 2)
  let high := compareScaled d.digits d.exponent (4 * mantissa + 2) (exponent - 2)
  if mantissa % 2 = 0 then low ≠ .lt && high ≠ .gt else low = .gt && high = .lt

/-- The greatest `e` with `10 ^ e ≤ n / d`, for positive `n` and `d`. -/
def floorLog10 (n d : Nat) : Int :=
  let e : Int := (Numeral.ofNat n).length - (Numeral.ofNat d).length
  if n * tenTo (-e) < d * tenTo e then e - 1 else e

/-- The neighbours of a number among the multiples of `10 ^ k`, the nearer one first; of two equally
near ones the even one comes first. -/
def neighbours (mantissa : Nat) (exponent k : Int) : List Decimals :=
  let n := mantissa * twoTo exponent * tenTo (-k)
  let d := twoTo (-exponent) * tenTo k
  let below := n / d
  let first := divNearest n d
  let second := if first = below then below + 1 else below
  [⟨first, k⟩, ⟨second, k⟩]

/-- The **shortest decimal** that rounds to a positive number. Grids of 17 digits are always fine
enough. -/
def shortest (mantissa : Nat) (exponent : Int) : Decimals :=
  let magnitude := floorLog10 (mantissa * twoTo exponent) (twoTo (-exponent))
  let onGrid (digits : Nat) : Option Decimals :=
    (neighbours mantissa exponent (magnitude - digits)).find? (rounds mantissa exponent)
  (((List.range 17).findSome? onGrid).getD ⟨mantissa, exponent⟩).strip

/-- The **text of a number.** A whole number is written as an integer, so that zero has no sign. -/
def write : Binary64 → Text
  | nan => "nan".toList
  | infinite negative => (if negative then "-inf" else "inf").toList
  | finite negative mantissa exponent =>
    let value := dyadic negative mantissa exponent
    if value.den = 1 then Numeral.ofInt value.num
    else
      let digits := (shortest mantissa exponent).write
      if negative then '-' :: digits else digits

end Binary64

end GridText
