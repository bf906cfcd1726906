import GridText.Numeral.Digits
import GridText.Text.DecimalDigit

/-!
# Decimal numbers

A decimal number keeps its digits: `1.50` and `1.5` differ. Besides finite numbers there are
infinities and values that are no number, which may signal and may carry a number.

* `Decimal.read?`: the number of a text: a sign, then digits with an optional point and exponent, or
  a word for an infinite number or for none, in letters of either case. Blanks at the ends and
  underscores are skipped, and digits of any script are read.
* `Decimal.write`: the scientific text of a number: positional when the exponent is not positive and
  at most five zeros follow the point before the digits, otherwise with one digit in front of the
  point and a signed exponent.
-/

namespace GridText

/-- A **decimal number.** The finite ones are `coefficient * 10 ^ exponent` with a sign. -/
inductive Decimal where
  | finite (negative : Bool) (coefficient : Nat) (exponent : Int)
  | infinite (negative : Bool)
  | nan (negative signalling : Bool) (payload : Nat)
  deriving DecidableEq, Repr

namespace Decimal

/-! ### Reading -/

/-- The character with a digit of any script made one of ASCII and a letter made small. -/
def fold (c : Char) : Char := ((decimalValue? c).map Nat.digitChar).getD c.toLower

/-- The value of some ASCII digits, if there is nothing else. -/
def digits? (s : Text) : Option Nat :=
  if s.all Char.isDigit then some (s.foldl (fun n c => 10 * n + (c.toNat - '0'.toNat)) 0) else none

/-- A sign in front, and the rest. -/
def sign : Text → Bool × Text
  | '-' :: s => (true, s)
  | '+' :: s => (false, s)
  | s => (false, s)

/-- An exponent: nothing, or the letter, a sign, and at least one digit. -/
def exponent? : Text → Option Int
  | [] => some 0
  | 'e' :: s =>
    let (negative, digits) := sign s
    if digits = [] then none
    else (digits? digits).map fun n => if negative then -(n : Int) else n
  | _ => none

/-- A finite number without its sign: digits, at least one of them, with at most one point. -/
def finite? (negative : Bool) (s : Text) : Option Decimal := do
  let whole := s.takeWhile Char.isDigit
  let rest := s.dropWhile Char.isDigit
  let (fraction, rest) := match rest with
    | '.' :: tail => (tail.takeWhile Char.isDigit, tail.dropWhile Char.isDigit)
    | _ => ([], rest)
  guard (whole ++ fraction ≠ [])
  let coefficient ← digits? (whole ++ fraction)
  let exponent ← exponent? rest
  return finite negative coefficient (exponent - fraction.length)

/-- The number of a text of small letters, its sign taken off. -/
def unsigned? (negative : Bool) (s : Text) : Option Decimal :=
  match s with
  | 's' :: 'n' :: 'a' :: 'n' :: payload => (digits? payload).map (nan negative true)
  | 'n' :: 'a' :: 'n' :: payload => (digits? payload).map (nan negative false)
  | _ =>
    if s = "inf".toList ∨ s = "infinity".toList then some (infinite negative)
    else finite? negative s

/-- The **decimal number of a text.** -/
def read? (s : Text) : Option Decimal :=
  let (negative, rest) := sign (((Text.trim s).filter (· ≠ '_')).map fold)
  unsigned? negative rest

/-! ### Writing -/

/-- The text of a finite number without its sign. The point stands behind the digits of the exponent
zero if that keeps it near enough, and otherwise behind the first digit. -/
def writeFinite (coefficient : Nat) (exponent : Int) : Text :=
  let digits := Numeral.ofNat coefficient
  let leading : Int := digits.length + exponent
  let point := if exponent ≤ 0 ∧ leading > -6 then leading else 1
  let shift := leading - point
  Numeral.pointed digits point ++
    if shift = 0 then []
    else 'E' :: (if shift < 0 then '-' else '+') :: Numeral.ofNat shift.natAbs

/-- A minus sign, or nothing. -/
def signText (negative : Bool) : Text := if negative then ['-'] else []

/-- The **text of a decimal number.** -/
def write : Decimal → Text
  | finite negative coefficient exponent => signText negative ++ writeFinite coefficient exponent
  | infinite negative => signText negative ++ "Infinity".toList
  | nan negative signalling payload =>
    signText negative ++ (if signalling then "sNaN" else "NaN").toList ++
      (if payload = 0 then [] else Numeral.ofNat payload)

end Decimal

end GridText
