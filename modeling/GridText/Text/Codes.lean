import GridText.Text.Pattern

/-!
# Text: terminal codes

A code begins with the escape character and an opening bracket and ends with the letter `m`; numbers
and semicolons stand between them. Codes are taken out of a text from left to right.

* `Text.codePattern`, `Text.plain`: the pattern of a code, and a text without the codes in it.
* `Text.coded`: a text behind a code, with the code in the end that resets it.
-/

namespace GridText.Text

/-- The escape character. -/
def escape : Char := '\x1b'

/-- A digit, or the semicolon between two numbers. -/
def isParameter (c : Char) : Bool := c.isDigit || c = ';'

/-- **The pattern of a code.** -/
def codePattern : Pattern :=
  .seq (.word [escape, '[']) (.seq (.many (.one isParameter)) (.one (· = 'm')))

/-- **The text without all codes** that are found in it. -/
def plain (s : Text) : Text := codePattern.erase s

/-- A text **between a code with some parameters and the code 0**, which resets it. -/
def coded (parameters s : Text) : Text :=
  escape :: '[' :: parameters ++ 'm' :: s ++ [escape, '[', '0', 'm']

end GridText.Text
