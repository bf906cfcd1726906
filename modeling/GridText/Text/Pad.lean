import GridText.Text.Blank

/-!
# Text: padding to a width

A text that is shorter than the width is filled with spaces; a longer one is left as it is.

* `Text.padRight`, `Text.padLeft`: spaces behind, in front.
* `Text.center`: spaces on both sides. Of an odd number of spaces the spare one goes behind when
  the width is even and in front when the width is odd.
* `Text.centerLeft`: the spare space always goes behind.
* `Text.length_padLeft`, `Text.length_center`: the length is the larger of the width and the text's.
-/

namespace GridText.Text

/-- So many spaces. -/
def spaces (n : Nat) : Text := List.replicate n ' '

/-- Spaces are put behind the text up to the width. -/
def padRight (width : Nat) (s : Text) : Text := s ++ spaces (width - s.length)

/-- Spaces are put in front of the text up to the width. -/
def padLeft (width : Nat) (s : Text) : Text := spaces (width - s.length) ++ s

/-- Centring. The spare space of an odd gap stands in front exactly when the width is odd. -/
def center (width : Nat) (s : Text) : Text :=
  let gap := width - s.length
  let front := gap / 2 + gap % 2 * (width % 2)
  spaces front ++ s ++ spaces (gap - front)

/-- Centring with the spare space of an odd gap behind the text. -/
def centerLeft (width : Nat) (s : Text) : Text :=
  let gap := width - s.length
  spaces (gap / 2) ++ s ++ spaces (gap - gap / 2)

@[simp] theorem length_spaces (n : Nat) : (spaces n).length = n := List.length_replicate

theorem length_padLeft (width : Nat) (s : Text) :
    (padLeft width s).length = max width s.length := by
  simp only [padLeft, List.length_append, length_spaces]; omega

theorem length_center (width : Nat) (s : Text) :
    (center width s).length = max width s.length := by
  have h : (width - s.length) % 2 * (width % 2) ≤ (width - s.length) % 2 * 1 :=
    Nat.mul_le_mul_left _ (by omega)
  simp only [center, List.length_append, length_spaces]; omega

end GridText.Text
