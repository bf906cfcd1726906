import GridText.Text.Blank

/-!
# Decimal digits

* `Numeral.ofNat`, `Numeral.ofInt`: the canonical decimal text of a whole number, without leading
  zeros, a minus sign in front of a negative one.
* `Numeral.pointed`: digits with a decimal point.
-/

namespace GridText.Numeral

/-- The decimal digits of a natural number. -/
def ofNat (n : Nat) : Text := Nat.toDigits 10 n

/-- The **decimal text of an integer.** -/
def ofInt (n : Int) : Text := if n < 0 then '-' :: ofNat n.natAbs else ofNat n.natAbs

/-- So many zeros. -/
def zeros (n : Nat) : Text := List.replicate n '0'

/-- Digits with a point behind so many of them. Zeros lead from the point to the digits if it
stands in front of them; they lead from the digits to the point, which is then left out, if it
stands behind them. -/
def pointed (digits : Text) (point : Int) : Text :=
  if point ≤ 0 then '0' :: '.' :: zeros (-point).toNat ++ digits
  else if point < digits.length then digits.take point.toNat ++ '.' :: digits.drop point.toNat
  else digits ++ zeros (point.toNat - digits.length)

end GridText.Numeral
