/-!
# Powers of two and of ten

A quotient of two whole numbers is scaled by a power with a whole exponent of either sign: the
numerator by the power of a positive exponent, the denominator by that of a negative one.

* `Numeral.twoTo`, `Numeral.tenTo`: the power if the exponent is not negative, and otherwise 1.
-/

namespace GridText.Numeral

/-- The power `2 ^ e` for an exponent that is not negative, and 1 for a negative one. -/
def twoTo (e : Int) : Nat := Nat.pow 2 e.toNat

/-- The power `10 ^ e` for an exponent that is not negative, and 1 for a negative one. -/
def tenTo (e : Int) : Nat := Nat.pow 10 e.toNat

theorem twoTo_pos (e : Int) : 0 < twoTo e := Nat.pow_pos (by decide)

end GridText.Numeral
