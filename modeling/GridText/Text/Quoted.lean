import GridText.Text.Split

/-!
# Text: quoted listings

Texts are listed between quotes. The quote is an apostrophe, or a double quote if there is an
apostrophe inside and no double quote.

* `Quoted.encode`: a text between quotes, with the quote itself, backslashes and control characters
  escaped.
* `Quoted.brackets`: entries between square brackets, with commas between them.
-/

namespace GridText.Text.Quoted

/-- The quote that a text is put between. -/
def quoteFor (s : Text) : Char := if '\x27' ∈ s ∧ '\x22' ∉ s then '\x22' else '\x27'

/-- A character that is written by its code: a control character, or a blank or invisible one of the
upper half of Latin-1. -/
def isHidden (c : Char) : Bool :=
  c.toNat < 0x20 || (0x7F ≤ c.toNat && c.toNat ≤ 0xA0) || c.toNat == 0xAD

/-- A character between quotes. -/
def escape (quote c : Char) : Text :=
  if c = quote ∨ c = '\\' then ['\\', c]
  else if c = '\t' then ['\\', 't']
  else if c = '\n' then ['\\', 'n']
  else if c = '\r' then ['\\', 'r']
  else if isHidden c then
    ['\\', 'x', Nat.digitChar (c.toNat / 16), Nat.digitChar (c.toNat % 16)]
  else [c]

/-- A **text between quotes.** -/
def encode (s : Text) : Text :=
  let quote := quoteFor s
  quote :: s.flatMap (escape quote) ++ [quote]

/-- Entries between square brackets. -/
def brackets (entries : List Text) : Text := '[' :: joinWith [',', ' '] entries ++ [']']

end GridText.Text.Quoted
