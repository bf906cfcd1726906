import GridText.Text.Blank

/-!
# Text: splitting and joining

* `Text.splitOn`: the parts between the occurrences of a separator, which is not empty, read from
  the left without overlap. A text without the separator is its only part.
* `Text.joinWith`: the parts with the separator between them.
* `Text.joinWith_splitOn`: joining undoes splitting.
-/

namespace GridText.Text

/-- The **parts of a text** between the occurrences of a separator. -/
def splitOn (separator : Text) : Text → List Text
  | [] => [[]]
  | c :: rest =>
    if separator.isPrefixOf (c :: rest) then
      [] :: splitOn separator (rest.drop (separator.length - 1))
    else (splitOn separator rest).modifyHead (c :: ·)
  termination_by s => s.length
  decreasing_by all_goals simp only [List.length_cons, List.length_drop]; omega

/-- The parts with the separator between each two of them. -/
def joinWith (separator : Text) (parts : List Text) : Text := separator.intercalate parts

theorem splitOn_ne_nil (separator s : Text) : splitOn separator s ≠ [] := by
  fun_induction splitOn separator s with
  | case1 => simp
  | case2 => simp
  | case3 c rest _ ih =>
    obtain ⟨part, parts, h⟩ := List.exists_cons_of_ne_nil ih
    simp [h]

theorem joinWith_modifyHead (separator : Text) (c : Char) {parts : List Text} (h : parts ≠ []) :
    joinWith separator (parts.modifyHead (c :: ·)) = c :: joinWith separator parts := by
  obtain ⟨part, others, rfl⟩ := List.exists_cons_of_ne_nil h
  cases others <;> simp [joinWith]

/-- Joining undoes splitting. -/
theorem joinWith_splitOn {separator : Text} (h : separator ≠ []) (s : Text) :
    joinWith separator (splitOn separator s) = s := by
  fun_induction splitOn separator s with
  | case1 => rfl
  | case2 c rest hfront ih =>
    obtain ⟨after, hafter⟩ := List.isPrefixOf_iff_prefix.1 hfront
    obtain ⟨d, sep, rfl⟩ := List.exists_cons_of_ne_nil h
    have hrest : rest.drop ((d :: sep).length - 1) = after := by
      obtain ⟨-, rfl⟩ := List.cons.inj hafter
      exact List.drop_left
    rw [joinWith, List.intercalate_cons_of_ne_nil (splitOn_ne_nil _ _), ← joinWith, ih, hrest]
    exact hafter
  | case3 c rest _ ih => rw [joinWith_modifyHead separator c (splitOn_ne_nil _ _), ih]

end GridText.Text
