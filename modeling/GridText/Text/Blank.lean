/-!
# Text: blanks

A text is a list of characters, so that every length, width and position counts characters. Blanks
separate the tokens of a row and are cut off at the ends of an entry.

* `isBlank`: the 29 blank characters, given by their ranges of code points.
* `Text.trimStart`, `Text.trimEnd`, `Text.trim`: a text without the blanks at its ends.
* `Text.leadingBlanks_append_trimStart`, `Text.trimStart_eq_nil_iff`: nothing but blanks is cut off
  at the front, and nothing is left of blanks alone.
-/

namespace GridText

/-- A text is the list of its characters. -/
abbrev Text := List Char

/-- The blank characters, as inclusive ranges of code points: tabulation and line control, the four
information separators, the space, and the separators of Unicode outside ASCII. -/
def blankRanges : List (Nat × Nat) :=
  [(0x09, 0x0D), (0x1C, 0x20), (0x85, 0x85), (0xA0, 0xA0), (0x1680, 0x1680), (0x2000, 0x200A),
    (0x2028, 0x2029), (0x202F, 0x202F), (0x205F, 0x205F), (0x3000, 0x3000)]

/-- A **blank character.** -/
def isBlank (c : Char) : Bool :=
  blankRanges.any fun (first, last) => first ≤ c.toNat && c.toNat ≤ last

/-- A character that is no blank. -/
def isInk (c : Char) : Bool := !isBlank c

namespace Text

/-- The blanks at the front. -/
def leadingBlanks (s : Text) : Text := s.takeWhile isBlank

/-- The text without the blanks at its front. -/
def trimStart (s : Text) : Text := s.dropWhile isBlank

/-- The text without the blanks at its end. -/
def trimEnd (s : Text) : Text := (s.reverse.dropWhile isBlank).reverse

/-- The text without the blanks at both its ends. -/
def trim (s : Text) : Text := trimEnd (trimStart s)

theorem leadingBlanks_append_trimStart (s : Text) : leadingBlanks s ++ trimStart s = s :=
  List.takeWhile_append_dropWhile

theorem length_trimStart_le (s : Text) : (trimStart s).length ≤ s.length :=
  (List.dropWhile_sublist _).length_le

/-- Nothing is left of blanks alone. -/
theorem trimStart_eq_nil_iff {s : Text} : trimStart s = [] ↔ ∀ c ∈ s, isBlank c = true := by
  induction s with
  | nil => simp [trimStart]
  | cons c s ih =>
    by_cases hc : isBlank c = true
    · rw [trimStart, List.dropWhile_cons_of_pos hc, ← trimStart, ih]
      simp [hc]
    · simp [trimStart, hc]

end Text

end GridText
