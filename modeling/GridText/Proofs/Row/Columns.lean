import GridText.Proofs.Row.Reading

/-! # Rows: spans and columns

The spans of a row count its size as position `0`; the columns of an item are those of the cells
behind it. For a row that was read (`Regular`) the two are compared here.

* `Regular.at_iff_of_ne_size`: an item that is not spelt like the size covers the columns of its
  span, shifted by one, and no other.
* `Differ`, `not_agreeOn_iff`: the four ways in which two rows disagree on a value. Only for a value
  that is spelt like neither size, its columns are what counts. -/

namespace GridText.Row

/-- A row that was read: a size, then cells with every item in one unbroken run. -/
structure Regular (row : Row) : Prop where
  sized : row = [row.size] :: row.cells
  unbroken : Unbroken row.cells

theorem WellFormed.regular {rules : Rules} {found : List Text} (h : WellFormed rules found) :
    Regular (ofTokens rules found) := by
  cases found with
  | nil => exact absurd h.size (by simp)
  | cons size entries => exact ⟨rfl, h.unbroken⟩

/-- **A row that can be read**, said without the tokens that spell it. -/
structure Valid (rules : Rules) (row : Row) : Prop extends Regular row where
  size : Track.Size row.size
  separator : row.cells ≠ [] → rules.separator ≠ []
  distinct : ∀ cell ∈ row.cells, cell.Nodup

theorem wellFormed_iff_valid {rules : Rules} {found : List Text} :
    WellFormed rules found ↔ Valid rules (ofTokens rules found) := by
  cases found with
  | nil => exact ⟨fun h => absurd h.size (by simp), fun h => absurd h.sized (by simp [ofTokens])⟩
  | cons size entries =>
    have hcells : (ofTokens rules (size :: entries)).cells = entries.map (Cell.ofEntry rules) := rfl
    constructor
    · intro h
      obtain ⟨_, he, hsize⟩ := h.size
      obtain rfl := Option.some.inj he
      refine ⟨h.regular, hsize, fun hne => h.separator (by simpa [hcells] using hne), ?_⟩
      rw [hcells, List.forall_mem_map]
      exact fun entry hentry => Cell.nodup_ofParts_iff.mpr (h.distinct entry hentry)
    · intro h
      refine ⟨⟨size, rfl, h.size⟩, fun hne => h.separator (by simpa [hcells] using hne), ?_,
        h.unbroken⟩
      intro entry hentry
      exact Cell.nodup_ofParts_iff.mp (h.distinct _ (hcells ▸ List.mem_map_of_mem hentry))

variable {row above below : Row} {item : Text}

theorem Regular.at_zero_iff (h : Regular row) : At row item 0 ↔ item = row.size := by
  rw [h.sized, at_cons_zero, List.mem_singleton]
  exact Iff.rfl

theorem Regular.at_succ_iff (h : Regular row) {c : ℕ} :
    At row item (c + 1) ↔ At row.cells item c := by
  conv_lhs => rw [h.sized]
  exact at_cons_succ

/-- The item stands in this column and in none further right. -/
def IsLast (cells : List Cell) (item : Text) (c : ℕ) : Prop :=
  At cells item c ∧ ∀ d, At cells item d → d ≤ c

/-- The item covers the same columns in both lists of cells. -/
def SameColumns (item : Text) (cells cells' : List Cell) : Prop :=
  ∀ c, At cells item c ↔ At cells' item c

/-- The item has the same right-most column in both lists of cells, or stands in neither. -/
def SameLast (item : Text) (cells cells' : List Cell) : Prop :=
  ∀ c, IsLast cells item c ↔ IsLast cells' item c

theorem Unbroken.at_iff {cells : List Cell} {left right : ℕ} (h : Unbroken cells)
    (hs : Spans cells item left right) (c : ℕ) : At cells item c ↔ left ≤ c ∧ c ≤ right :=
  ⟨hs.within c, fun hc => h item left c right hc.1 hc.2 hs.at_left hs.at_right⟩

/-! ### An item that is not spelt like the size -/

theorem Regular.spans_of_cells (h : Regular row) (hne : item ≠ row.size) {left right : ℕ}
    (hs : Spans row.cells item left right) : Spans row item (left + 1) (right + 1) := by
  refine ⟨h.at_succ_iff.mpr hs.at_left, h.at_succ_iff.mpr hs.at_right, fun p hp => ?_⟩
  cases p with
  | zero => exact absurd (h.at_zero_iff.mp hp) hne
  | succ c =>
    have := hs.within c (h.at_succ_iff.mp hp)
    omega

theorem Regular.exists_cells_of_spans (h : Regular row) (hne : item ≠ row.size) {left right : ℕ}
    (hs : Spans row item left right) :
    ∃ l r, left = l + 1 ∧ right = r + 1 ∧ Spans row.cells item l r := by
  cases left with
  | zero => exact absurd (h.at_zero_iff.mp hs.at_left) hne
  | succ l =>
    obtain ⟨r, rfl⟩ : ∃ r, right = r + 1 := ⟨right - 1, by have := hs.le; omega⟩
    refine ⟨l, r, rfl, rfl, h.at_succ_iff.mp hs.at_left, h.at_succ_iff.mp hs.at_right, ?_⟩
    intro c hc
    have := hs.within (c + 1) (h.at_succ_iff.mpr hc)
    omega

/-- **The columns of an item** are those of its span, shifted by one. -/
theorem Regular.at_iff_of_ne_size (h : Regular row) (hne : item ≠ row.size) {left right : ℕ}
    (hs : Spans row item (left + 1) (right + 1)) (c : ℕ) :
    At row.cells item c ↔ left ≤ c ∧ c ≤ right := by
  obtain ⟨l, r, hl, hr, hcells⟩ := h.exists_cells_of_spans hne hs
  rw [h.unbroken.at_iff hcells]
  omega

/-! ### A value that is spelt like the size -/

theorem Regular.spans_left_of_eq_size (h : Regular row) (he : item = row.size) {left right : ℕ}
    (hs : Spans row item left right) : left = 0 := by
  have := (hs.within 0 (h.at_zero_iff.mpr he)).1
  omega

/-- The span of the size ends at the right-most column of the item that is spelt like it. -/
theorem Regular.spans_zero_iff (h : Regular row) (he : item = row.size) {c : ℕ} :
    Spans row item 0 (c + 1) ↔ IsLast row.cells item c := by
  constructor
  · intro hs
    refine ⟨h.at_succ_iff.mp hs.at_right, fun d hd => ?_⟩
    have := (hs.within (d + 1) (h.at_succ_iff.mpr hd)).2
    omega
  · rintro ⟨hc, hlast⟩
    refine ⟨h.at_zero_iff.mpr he, h.at_succ_iff.mpr hc, fun p hp => ⟨Nat.zero_le p, ?_⟩⟩
    cases p with
    | zero => exact Nat.zero_le _
    | succ d =>
      have := hlast d (h.at_succ_iff.mp hp)
      omega

theorem Regular.spans_of_eq_size (h : Regular row) (he : item = row.size) :
    ∃ right, Spans row item 0 right := by
  obtain ⟨left, right, hs⟩ := exists_spans (h.at_zero_iff.mpr he)
  obtain rfl := h.spans_left_of_eq_size he hs
  exact ⟨right, hs⟩

/-! ### Agreement -/

/-- Every value that stands on both rows has the same left-most and right-most position on both. -/
def Agree (above below : Row) : Prop :=
  ∀ item left right left' right', Spans above item left right → Spans below item left' right' →
    left = left' ∧ right = right'

/-- Agreement of two rows on one value. -/
def AgreeOn (above below : Row) (item : Text) : Prop :=
  ∀ left right left' right', Spans above item left right → Spans below item left' right' →
    left = left' ∧ right = right'

theorem agree_iff_agreeOn : Agree above below ↔ ∀ item, AgreeOn above below item := Iff.rfl

theorem AgreeOn.symm (h : AgreeOn above below item) : AgreeOn below above item := by
  intro left right left' right' hs hs'
  obtain ⟨hl, hr⟩ := h _ _ _ _ hs' hs
  exact ⟨hl.symm, hr.symm⟩

theorem agreeOn_comm : AgreeOn above below item ↔ AgreeOn below above item :=
  ⟨AgreeOn.symm, AgreeOn.symm⟩

theorem agreeOn_of_ne_sizes (ha : Regular above) (hb : Regular below) (hna : item ≠ above.size)
    (hnb : item ≠ below.size) : AgreeOn above below item ↔
      (item ∈ above.cells.flatten → item ∈ below.cells.flatten →
        SameColumns item above.cells below.cells) := by
  simp only [← exists_at_iff]
  constructor
  · rintro h ⟨c, hc⟩ ⟨d, hd⟩ e
    obtain ⟨l, r, hs⟩ := exists_spans hc
    obtain ⟨l', r', hs'⟩ := exists_spans hd
    obtain ⟨hl, hr⟩ := h _ _ _ _ (ha.spans_of_cells hna hs) (hb.spans_of_cells hnb hs')
    rw [ha.unbroken.at_iff hs, hb.unbroken.at_iff hs']
    omega
  · intro h left right left' right' hs hs'
    obtain ⟨l, r, rfl, rfl, ht⟩ := ha.exists_cells_of_spans hna hs
    obtain ⟨l', r', rfl, rfl, ht'⟩ := hb.exists_cells_of_spans hnb hs'
    have hsame := h ⟨l, ht.at_left⟩ ⟨l', ht'.at_left⟩
    have ht'' : Spans below.cells item l r := by
      refine ⟨(hsame l).mp ht.at_left, (hsame r).mp ht.at_right, fun p hp => ?_⟩
      exact ht.within p ((hsame p).mpr hp)
    obtain ⟨rfl, rfl⟩ := ht''.unique ht'
    exact ⟨rfl, rfl⟩

/-- A value spelt like the size of one row alone stands at `0` there and further right on the other
row, so the rows can only agree on it by its absence. -/
theorem agreeOn_of_eq_one_size (ha : Regular above) (hb : Regular below) (hea : item = above.size)
    (hnb : item ≠ below.size) : AgreeOn above below item ↔ item ∉ below.cells.flatten := by
  rw [← exists_at_iff, not_exists]
  constructor
  · intro h c hc
    obtain ⟨right, hs⟩ := ha.spans_of_eq_size hea
    obtain ⟨l', r', hs'⟩ := exists_spans hc
    have := (h _ _ _ _ hs (hb.spans_of_cells hnb hs')).1
    omega
  · intro h left right left' right' _ hs'
    obtain ⟨l', r', -, -, ht'⟩ := hb.exists_cells_of_spans hnb hs'
    exact absurd ht'.at_left (h l')

/-- A value spelt like both sizes is compared by its right-most column alone. -/
theorem agreeOn_of_eq_sizes (ha : Regular above) (hb : Regular below) (hea : item = above.size)
    (heb : item = below.size) :
    AgreeOn above below item ↔ SameLast item above.cells below.cells := by
  obtain ⟨right, hs⟩ := ha.spans_of_eq_size hea
  obtain ⟨right', hs'⟩ := hb.spans_of_eq_size heb
  simp only [SameLast, ← ha.spans_zero_iff hea, ← hb.spans_zero_iff heb]
  constructor
  · intro h c
    obtain ⟨-, rfl⟩ := h _ _ _ _ hs hs'
    exact ⟨fun hc => (hs.unique hc).2 ▸ hs', fun hc => (hs'.unique hc).2 ▸ hs⟩
  · intro h left r left' r' hs₁ hs₂
    obtain ⟨rfl, rfl⟩ := hs.unique hs₁
    obtain ⟨rfl, rfl⟩ := hs'.unique hs₂
    refine ⟨rfl, ?_⟩
    -- of two different ends one is positive, and then it is the end on the other row as well
    rcases Nat.eq_zero_or_pos right with rfl | hpos
    · rcases Nat.eq_zero_or_pos right' with rfl | hpos'
      · rfl
      · obtain ⟨c, rfl⟩ : ∃ c, right' = c + 1 := ⟨right' - 1, by omega⟩
        exact (hs.unique ((h c).mpr hs')).2
    · obtain ⟨c, rfl⟩ : ∃ c, right = c + 1 := ⟨right - 1, by omega⟩
      exact (((h c).mp hs).unique hs').2

/-! ### Disagreement -/

/-- **The ways in which two rows, one below the other, disagree on a value.** -/
inductive Differ (item : Text) (above below : Row) : Prop
  /-- An item of both, spelt like the size of neither, covers other columns. -/
  | columns : item ≠ above.size → item ≠ below.size → item ∈ above.cells.flatten →
      item ∈ below.cells.flatten → ¬ SameColumns item above.cells below.cells →
      Differ item above below
  /-- The size of the row above alone is an item below. -/
  | sizeAbove : item = above.size → item ≠ below.size → item ∈ below.cells.flatten →
      Differ item above below
  /-- The size of the row below alone is an item above. -/
  | sizeBelow : item ≠ above.size → item = below.size → item ∈ above.cells.flatten →
      Differ item above below
  /-- The item spelt like both sizes ends in another column, or stands on one of the rows only. -/
  | sizes : item = above.size → item = below.size →
      ¬ SameLast item above.cells below.cells → Differ item above below

/-- **What disagreement means for one value.** -/
theorem not_agreeOn_iff (ha : Regular above) (hb : Regular below) :
    ¬ AgreeOn above below item ↔ Differ item above below := by
  constructor
  · intro h
    by_cases hea : item = above.size <;> by_cases heb : item = below.size
    · rw [agreeOn_of_eq_sizes ha hb hea heb] at h
      exact .sizes hea heb h
    · rw [agreeOn_of_eq_one_size ha hb hea heb, not_not] at h
      exact .sizeAbove hea heb h
    · rw [agreeOn_comm, agreeOn_of_eq_one_size hb ha heb hea, not_not] at h
      exact .sizeBelow hea heb h
    · rw [agreeOn_of_ne_sizes ha hb hea heb] at h
      simp only [not_forall] at h
      obtain ⟨hia, hib, hcolumns⟩ := h
      exact .columns hea heb hia hib hcolumns
  · intro h
    cases h with
    | columns hea heb hia hib hne =>
      rw [agreeOn_of_ne_sizes ha hb hea heb]
      exact fun h => hne (h hia hib)
    | sizeAbove hea heb hib =>
      rw [agreeOn_of_eq_one_size ha hb hea heb, not_not]
      exact hib
    | sizeBelow hea heb hia =>
      rw [agreeOn_comm, agreeOn_of_eq_one_size hb ha heb hea, not_not]
      exact hia
    | sizes hea heb hne =>
      rw [agreeOn_of_eq_sizes ha hb hea heb]
      exact hne

/-- **What agreement means for an item of both rows.** -/
theorem Agree.columns_or_last (h : Agree above below) (ha : Regular above) (hb : Regular below)
    (hia : item ∈ above.cells.flatten) (hib : item ∈ below.cells.flatten) :
    (item ≠ above.size ∧ item ≠ below.size ∧ SameColumns item above.cells below.cells) ∨
      (item = above.size ∧ item = below.size ∧ SameLast item above.cells below.cells) := by
  have hno : ¬ Differ item above below := fun hd => (not_agreeOn_iff ha hb).mpr hd (h item)
  by_cases hea : item = above.size <;> by_cases heb : item = below.size
  · exact Or.inr ⟨hea, heb, by_contra fun hne => hno (.sizes hea heb hne)⟩
  · exact absurd (.sizeAbove hea heb hib) hno
  · exact absurd (.sizeBelow hea heb hia) hno
  · exact Or.inl ⟨hea, heb, by_contra fun hne => hno (.columns hea heb hia hib hne)⟩

end GridText.Row
