import GridText.Text.Lines
import GridText.Proofs.Text.Split

/-! # Text: the lines of joined texts

A text that holds no break is a line, if it is not empty. Two texts with a break between them have
the lines of both; an empty line may come between these.

* `lines_append`: the lines of two texts with a break between them.
* `blank_lines_iff`: a text is blank exactly when all its lines are. -/

namespace GridText.Text

theorem lines_cons {c : Char} (h : isLineBreak c = false) (rest : Text) :
    lines (c :: rest) = match lines rest with
      | [] => [[c]]
      | line :: others => (c :: line) :: others := by
  have hc : c ≠ '\r' := by
    rintro rfl
    exact absurd h (by decide)
  rw [lines]
  · simp only [h]
    rfl
  · rintro rest' rfl
    exact absurd rfl hc

theorem lines_unbroken {line : Text} (hne : line ≠ []) (h : ∀ c ∈ line, isLineBreak c = false) :
    lines line = [line] := by
  induction line with
  | nil => exact absurd rfl hne
  | cons c line ih =>
    rw [lines_cons (h c (by simp))]
    cases line with
    | nil => rfl
    | cons d line => rw [ih (List.cons_ne_nil d line) fun e he => h e (List.mem_cons_of_mem c he)]

theorem lines_break {c : Char} (hc : isLineBreak c = true) {t : Text}
    (hno : ∀ rest, c = '\r' → t = '\n' :: rest → False) : lines (c :: t) = [] :: lines t := by
  rw [lines]
  · rw [if_pos hc]
  · exact hno

/-! ### Any texts -/

theorem isBlank_of_isLineBreak {c : Char} (h : isLineBreak c = true) : isBlank c = true := by
  unfold isLineBreak at h
  simp only [Bool.or_eq_true, Bool.and_eq_true, decide_eq_true_eq, beq_iff_eq] at h
  simp only [isBlank, blankRanges, List.any_cons, List.any_nil, Bool.or_false, Bool.or_eq_true,
    Bool.and_eq_true, decide_eq_true_eq]
  omega

/-- A text without blanks has no breaks. -/
theorem Ink.unbroken {s : Text} (h : Ink s) : ∀ c ∈ s, isLineBreak c = false := by
  intro c hc
  cases hbreak : isLineBreak c with
  | false => rfl
  | true =>
    have hblank := isBlank_of_isLineBreak hbreak
    rw [h c hc] at hblank
    cases hblank

theorem lines_ne_nil {s : Text} (h : s ≠ []) : lines s ≠ [] := by
  fun_induction lines s with
  | case1 => exact absurd rfl h
  | case2 => exact List.cons_ne_nil _ _
  | case3 => exact List.cons_ne_nil _ _
  | case4 => exact List.cons_ne_nil _ _
  | case5 => exact List.cons_ne_nil _ _

/-- **A text is blank exactly when its lines are**, for a break is a blank. -/
theorem blank_lines_iff {s : Text} : (∀ line ∈ lines s, Blank line) ↔ Blank s := by
  have hcons (c : Char) (t : Text) : Blank (c :: t) ↔ isBlank c = true ∧ Blank t :=
    List.forall_mem_cons
  fun_induction lines s with
  | case1 => exact ⟨fun _ => blank_nil, fun _ _ h => absurd h List.not_mem_nil⟩
  | case2 rest ih =>
    rw [List.forall_mem_cons, hcons, hcons]
    exact ⟨fun h => ⟨rfl, rfl, ih.mp h.2⟩, fun h => ⟨blank_nil, ih.mpr h.2.2⟩⟩
  | case3 c rest _ hc ih =>
    have hblank := isBlank_of_isLineBreak hc
    rw [List.forall_mem_cons, hcons]
    exact ⟨fun h => ⟨hblank, ih.mp h.2⟩, fun h => ⟨blank_nil, ih.mpr h.2⟩⟩
  | case4 c rest _ _ hnil ih =>
    have hrest : rest = [] := by_contra fun hne => lines_ne_nil hne hnil
    rw [List.forall_mem_singleton, hrest]
  | case5 c rest _ _ line others hlines ih =>
    rw [hlines, List.forall_mem_cons] at ih
    rw [List.forall_mem_cons, hcons, hcons, and_assoc]
    exact and_congr_right fun _ => ih

/-- **Texts with a break between them** have the lines of both, and an empty one between them if the
first text ends with a break itself. -/
theorem lines_append (s t : Text) : ∃ gap, (∀ line ∈ gap, line = []) ∧
    lines (s ++ '\n' :: t) = lines s ++ gap ++ lines t := by
  have hfeed (t : Text) : lines ('\n' :: t) = [] :: lines t := lines_break rfl fun _ h => by cases h
  fun_induction lines s with
  | case1 => exact ⟨[[]], by simp, hfeed t⟩
  | case2 rest ih =>
    obtain ⟨gap, hgap, he⟩ := ih
    refine ⟨gap, hgap, ?_⟩
    rw [List.cons_append, List.cons_append, lines, he]
    rfl
  | case3 c rest hno hc ih =>
    cases rest with
    | nil =>
      by_cases hr : c = '\r'
      · subst hr
        exact ⟨[], by simp, by simp [lines]⟩
      · refine ⟨[[]], by simp, ?_⟩
        rw [List.singleton_append, lines_break hc fun _ h _ => hr h, hfeed]
        rfl
    | cons d rest =>
      obtain ⟨gap, hgap, he⟩ := ih
      refine ⟨gap, hgap, ?_⟩
      rw [List.cons_append, lines_break hc, he]
      · rfl
      · rintro rest' hr hrest
        obtain ⟨rfl, -⟩ := List.cons.inj hrest
        exact hno rest hr rfl
  | case4 c rest hno hc hnil ih =>
    have hrest : rest = [] := by_contra fun hne => lines_ne_nil hne hnil
    refine ⟨[], by simp, ?_⟩
    rw [hrest, List.singleton_append, lines_cons (Bool.eq_false_iff.mpr hc), hfeed]
    rfl
  | case5 c rest hno hc line others hlines ih =>
    obtain ⟨gap, hgap, he⟩ := ih
    refine ⟨gap, hgap, ?_⟩
    rw [List.cons_append, lines_cons (Bool.eq_false_iff.mpr hc), he, hlines]
    rfl

end GridText.Text
