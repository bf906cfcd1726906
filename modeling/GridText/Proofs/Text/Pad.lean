import GridText.Text.Pad
import GridText.Proofs.Text.Split

/-! # Text: centred texts, ruled lines, texts without a character

* `Centred`: a text in the middle of a width, said without the number of spaces on each side;
  `centred_iff`: a text that is no longer than the width is centred in one way.
* `exists_trimEnd_append_spaces`: which spaces are cut off behind a centred text.
* `Ruled`: cells of one width with a rule on either side of each; `ruled_joinWith`: this is how a
  line looks in which such cells are joined.
* `OneLine`: a text without a line feed.
* `not_mem_center` and its companions: padding and joining bring in no characters but spaces and the
  separator. -/

namespace GridText.Text

theorem blank_spaces (n : ℕ) : Blank (spaces n) := fun _ hc => by
  rw [List.eq_of_mem_replicate hc]
  rfl

theorem spaces_succ (n : ℕ) : spaces (n + 1) = spaces n ++ [' '] := List.replicate_succ'

/-- A fold of maxima bounds the lengths of its texts and where it began, and nothing more. -/
theorem foldl_max_length_le_iff {texts : List Text} {m n : ℕ} :
    texts.foldl (fun width text => max width text.length) m ≤ n ↔
      m ≤ n ∧ ∀ text ∈ texts, text.length ≤ n := by
  induction texts generalizing m with
  | nil => simp
  | cons text texts ih => rw [List.foldl_cons, ih, Nat.max_le, List.forall_mem_cons, and_assoc]

/-! ### Centred texts -/

/-- **A text in the middle of a width**, between as many spaces on the left as on the right. If
their number is odd, the spare one is on the left in an odd width and on the right in an even one. -/
def Centred (width : ℕ) (s t : Text) : Prop :=
  ∃ front back, t = spaces front ++ s ++ spaces back ∧ t.length = width ∧
    (front = back ∨ (width % 2 = 1 ∧ front = back + 1) ∨ (width % 2 = 0 ∧ back = front + 1))

theorem Centred.length_eq {width : ℕ} {s t : Text} (h : Centred width s t) : t.length = width := by
  obtain ⟨_, _, -, hlen, -⟩ := h
  exact hlen

/-- **A text is centred in one way**, and if it is not longer than the width. -/
theorem centred_iff {width : ℕ} {s t : Text} :
    Centred width s t ↔ s.length ≤ width ∧ t = center width s := by
  constructor
  · rintro ⟨front, back, rfl, hlen, hsides⟩
    simp only [List.length_append, length_spaces] at hlen
    have hgap : width - s.length = front + back := by omega
    -- the sides of an even gap are equal, and the parity of the width tells those of an odd one
    have hfront : (front + back) / 2 + (front + back) % 2 * (width % 2) = front := by
      rcases hsides with he | ⟨hodd, he⟩ | ⟨heven, he⟩
      · rw [show (front + back) % 2 = 0 by omega]
        omega
      · rw [hodd]
        omega
      · rw [heven]
        omega
    refine ⟨by omega, ?_⟩
    simp only [center, hgap, hfront, Nat.add_sub_cancel_left]
  · rintro ⟨hle, rfl⟩
    have hlen : (center width s).length = width := by
      rw [length_center]
      omega
    refine ⟨_, _, rfl, hlen, ?_⟩
    rcases Nat.mod_two_eq_zero_or_one (width - s.length) with hgap | hgap
    · rw [hgap]
      omega
    · rw [hgap]
      omega

theorem centred_center {width : ℕ} {s : Text} (h : s.length ≤ width) :
    Centred width s (center width s) := centred_iff.mpr ⟨h, rfl⟩

/-- Of a line that ends with a centred text, the spaces behind the text are cut off. -/
theorem exists_trimEnd_append_spaces {s : Text} (h : EndsInInk s) (front : Text) (width : ℕ) :
    ∃ n, trimEnd (front ++ center width s) ++ spaces n = front ++ center width s := by
  have htrim (before : Text) (n : ℕ) :
      trimEnd (before ++ s ++ spaces n) ++ spaces n = before ++ s ++ spaces n := by
    rw [(h.append before).trimEnd_append_blank (blank_spaces n)]
  simp only [center, ← List.append_assoc]
  exact ⟨_, htrim _ _⟩

/-! ### Ruled lines -/

/-- **Cells of one width between rules.** From an offset on, the line has a rule, then the first
cell, then a rule again, and so on; it ends with the rule behind the last cell. -/
structure Ruled (left middle right : Char) (start width : ℕ) (cells : List Text) (s : Text) :
    Prop where
  /-- The line ends behind the last rule. -/
  length : s.length = start + cells.length * (width + 1) + 1
  /-- The rule in front of the first cell. -/
  left : s[start]? = some left
  /-- The rule between a cell and the one before it. -/
  middle : ∀ c, 0 < c → c < cells.length → s[start + c * (width + 1)]? = some middle
  /-- The rule behind the last cell. -/
  right : s[start + cells.length * (width + 1)]? = some right
  /-- So many characters from the place of a cell are the cell. -/
  cell : ∀ c cell, cells[c]? = some cell →
    (s.drop (start + 1 + c * (width + 1))).take width = cell

section

variable {left middle right : Char} {start width : ℕ} {cell : Text} {cells : List Text} {s : Text}

/-- One more cell in front. -/
theorem Ruled.cons (h : Ruled middle middle right (start + (width + 1)) width cells s)
    (hleft : s[start]? = some left) (hcell : (s.drop (start + 1)).take width = cell) :
    Ruled left middle right start width (cell :: cells) s := by
  have hplace (c : ℕ) : start + (c + 1) * (width + 1) = start + (width + 1) + c * (width + 1) := by
    rw [Nat.succ_mul]
    omega
  refine ⟨?_, hleft, fun c hpos hc => ?_, ?_, fun c found hc => ?_⟩
  · rw [List.length_cons, hplace]
    exact h.length
  · obtain ⟨c, rfl⟩ := Nat.exists_eq_add_one.mpr hpos
    rw [hplace]
    rcases Nat.eq_zero_or_pos c with rfl | hpos
    · simpa using h.left
    · exact h.middle c hpos (by simpa using hc)
  · rw [List.length_cons, hplace]
    exact h.right
  · cases c with
    | zero =>
      obtain rfl := Option.some.inj hc
      simpa using hcell
    | succ c =>
      rw [Nat.add_right_comm, hplace, Nat.add_right_comm]
      exact h.cell c found hc

/-- **Joined cells of one width are ruled**, behind a front of any length. -/
theorem ruled_joinWith (hne : cells ≠ []) (h : ∀ cell ∈ cells, cell.length = width) {front : Text}
    (hfront : front.length = start) :
    Ruled left middle right start width cells
      (front ++ (left :: joinWith [middle] cells ++ [right])) := by
  induction cells generalizing front start left with
  | nil => exact absurd rfl hne
  | cons cell cells ih =>
    obtain ⟨hcell, hcells⟩ := List.forall_mem_cons.mp h
    have hleft (rest : Text) : (front ++ left :: rest)[start]? = some left := by
      rw [List.getElem?_append_right hfront.le, hfront, Nat.sub_self]
      rfl
    have htake (rest : Text) :
        ((front ++ left :: (cell ++ rest)).drop (start + 1)).take width = cell := by
      rw [← hfront, List.drop_append, List.drop_eq_nil_of_le (by omega), Nat.add_sub_cancel_left]
      exact List.take_left' hcell
    cases cells with
    | nil =>
      rw [joinWith_singleton]
      refine ⟨by simp [hfront, hcell]; omega, hleft _, fun c hpos hc => ?_, ?_, fun c found hc => ?_⟩
      · simp at hc
        omega
      · rw [← List.append_assoc, List.getElem?_append_right (by simp; omega)]
        simp [hfront, hcell]
      · cases c with
        | zero =>
          obtain rfl := Option.some.inj hc
          simpa using htake _
        | succ c => cases hc
    | cons second cells =>
      have hmore : (front ++ left :: cell).length = start + (width + 1) := by
        simp [hfront, hcell]
      have hrest : Ruled middle middle right (start + (width + 1)) width (second :: cells)
          (front ++ left :: cell ++ (middle :: joinWith [middle] (second :: cells) ++ [right])) :=
        ih (List.cons_ne_nil second cells) hcells hmore
      have hline : front ++ (left :: joinWith [middle] (cell :: second :: cells) ++ [right]) =
          front ++ left :: cell ++ (middle :: joinWith [middle] (second :: cells) ++ [right]) := by
        rw [joinWith_cons_cons]
        simp
      rw [hline]
      refine hrest.cons ?_ ?_
      · rw [List.append_assoc]
        exact hleft _
      · rw [List.append_assoc]
        exact htake _

end

/-! ### Texts without a character -/

/-- The text has no line feed. -/
def OneLine (s : Text) : Prop := '\n' ∉ s

section

variable {c : Char} {s : Text}

theorem not_mem_spaces (hc : c ≠ ' ') (n : ℕ) : c ∉ spaces n := fun h =>
  hc (List.eq_of_mem_replicate h)

theorem not_mem_center (hc : c ≠ ' ') (h : c ∉ s) (width : ℕ) : c ∉ center width s := by
  unfold center
  simp only [List.mem_append, not_or]
  exact ⟨⟨not_mem_spaces hc _, h⟩, not_mem_spaces hc _⟩

theorem not_mem_padLeft (hc : c ≠ ' ') (h : c ∉ s) (width : ℕ) : c ∉ padLeft width s := by
  unfold padLeft
  rw [List.mem_append, not_or]
  exact ⟨not_mem_spaces hc _, h⟩

theorem not_mem_joinWith {separator : Text} (hsep : c ∉ separator) {parts : List Text}
    (h : ∀ part ∈ parts, c ∉ part) : c ∉ joinWith separator parts := fun hc =>
  (mem_joinWith hc).elim hsep fun ⟨part, hpart, hc⟩ => h part hpart hc

end

end GridText.Text
