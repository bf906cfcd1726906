import GridText.Text.Blank

/-!
# Text: lines

A line break ends a line; a carriage return followed by a line feed is one break. A text that ends
with a break has no empty line after it, so the empty text has no line at all.

* `Text.lines`: the lines of a text, without their breaks.
* `Text.isLineBreak_of_mem_lines`: no line holds a break.
-/

namespace GridText

/-- The characters that end a line. -/
def isLineBreak (c : Char) : Bool :=
  let n := c.toNat
  (0x0A ≤ n && n ≤ 0x0D) || (0x1C ≤ n && n ≤ 0x1E) || n == 0x85 || n == 0x2028 || n == 0x2029

/-- The **lines of a text**, each without the break that ends it. -/
def Text.lines : Text → List Text
  | [] => []
  | '\r' :: '\n' :: rest => [] :: lines rest
  | c :: rest =>
    if isLineBreak c then [] :: lines rest
    else match lines rest with
      | [] => [[c]]
      | line :: others => (c :: line) :: others

/-- No line holds a line break. -/
theorem Text.isLineBreak_of_mem_lines {s line : Text} (h : line ∈ Text.lines s) {c : Char}
    (hc : c ∈ line) : isLineBreak c = false := by
  fun_induction Text.lines s generalizing line with
  | case1 => simp at h
  | case2 rest ih =>
    rcases List.mem_cons.1 h with rfl | h
    · simp at hc
    · exact ih h hc
  | case3 d rest _ _ ih =>
    rcases List.mem_cons.1 h with rfl | h
    · simp at hc
    · exact ih h hc
  | case4 d rest _ hd hnil ih =>
    simp only [List.mem_singleton] at h
    subst h
    simp only [List.mem_singleton] at hc
    simpa [hc] using hd
  | case5 d rest _ hd first others hlines ih =>
    rcases List.mem_cons.1 h with rfl | h
    · rcases List.mem_cons.1 hc with rfl | hc
      · simpa using hd
      · exact ih (hlines ▸ List.mem_cons_self) hc
    · exact ih (hlines ▸ List.mem_cons_of_mem _ h) hc

end GridText
