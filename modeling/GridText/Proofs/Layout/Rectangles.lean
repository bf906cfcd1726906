import GridText.Plan.Basic
import GridText.Proofs.Layout.Areas
import GridText.Proofs.Layout.Language

/-! # Areas: items are rectangles

Reading compares a row only with the row above it. Along a run of consecutive rows with an item the
columns are therefore handed down from row to row (`spans_of_rows`), and the cells with the item are
a full rectangle (`IsBlock`). An item may have several such runs, with other columns in each; its
area is the least box around the rectangles. -/

namespace GridText.Layout

variable {l : Layout} {item : Text}

/-! ### Runs of rows -/

/-- Some cell of this interior row holds the item. -/
def InRow (l : Layout) (item : Text) (r : ℕ) : Prop := ∃ c, l.Holds item r c

/-- A longest run of consecutive interior rows with the item. -/
structure IsRun (l : Layout) (item : Text) (first last : ℕ) : Prop where
  le : first ≤ last
  inside : ∀ r, first ≤ r → r ≤ last → l.InRow item r
  before : ∀ r, r + 1 = first → ¬ l.InRow item r
  after : ¬ l.InRow item (last + 1)

theorem exists_first (P : ℕ → Prop) {r : ℕ} (h : P r) :
    ∃ first ≤ r, (∀ i, first ≤ i → i ≤ r → P i) ∧ ∀ i, i + 1 = first → ¬ P i := by
  induction r with
  | zero =>
    refine ⟨0, le_rfl, fun i _ hi => ?_, fun i hi => absurd hi (by omega)⟩
    obtain rfl : i = 0 := by omega
    exact h
  | succ r ih =>
    by_cases hr : P r
    · obtain ⟨first, hle, hin, hbefore⟩ := ih hr
      refine ⟨first, by omega, fun i hi hi' => ?_, hbefore⟩
      rcases Nat.lt_or_ge i (r + 1) with hlt | hge
      · exact hin i hi (by omega)
      · obtain rfl : i = r + 1 := by omega
        exact h
    · refine ⟨r + 1, le_rfl, fun i hi hi' => ?_, fun i hi => ?_⟩
      · obtain rfl : i = r + 1 := by omega
        exact h
      · obtain rfl : i = r := by omega
        exact hr

/-- A property that fails from `bound` on stops holding somewhere. -/
theorem exists_last (P : ℕ → Prop) {bound : ℕ} (hbound : ∀ i, P i → i < bound) {r : ℕ} (h : P r) :
    ∃ last, r ≤ last ∧ (∀ i, r ≤ i → i ≤ last → P i) ∧ ¬ P (last + 1) := by
  obtain ⟨n, hn⟩ : ∃ n, bound = r + n := ⟨bound - r, by have := hbound r h; omega⟩
  induction n generalizing r with
  | zero => exact absurd (hbound r h) (by omega)
  | succ n ih =>
    by_cases hnext : P (r + 1)
    · obtain ⟨last, hle, hin, hafter⟩ := ih hnext (by omega)
      refine ⟨last, by omega, fun i hi hi' => ?_, hafter⟩
      rcases Nat.lt_or_ge r i with hlt | hge
      · exact hin i hlt hi'
      · obtain rfl : i = r := by omega
        exact h
    · refine ⟨r, le_rfl, fun i hi hi' => ?_, hnext⟩
      obtain rfl : i = r := by omega
      exact h

theorem InRow.lt_length {r : ℕ} (h : l.InRow item r) : r < l.interior.length := by
  obtain ⟨c, cells, hcells, -⟩ := h
  exact (List.getElem?_eq_some_iff.mp hcells).1

theorem exists_isRun {r : ℕ} (h : l.InRow item r) :
    ∃ first last, l.IsRun item first last ∧ first ≤ r ∧ r ≤ last := by
  obtain ⟨first, hfirst, hin, hbefore⟩ := exists_first (l.InRow item) h
  obtain ⟨last, hlast, hin', hafter⟩ := exists_last (l.InRow item) (fun i hi => hi.lt_length) h
  refine ⟨first, last, ⟨by omega, fun i hi hi' => ?_, hbefore, hafter⟩, hfirst, hlast⟩
  rcases Nat.le_total i r with hle | hle
  · exact hin i hi hle
  · exact hin' i hle hi'

/-! ### The rows of a run -/

theorem Holds.exists_row {r c : ℕ} (h : l.Holds item r c) :
    ∃ row, l.body[r]? = some row ∧ l.interior[r]? = some row.cells := by
  obtain ⟨cells, hcells, -⟩ := h
  have hcells' := hcells
  unfold interior at hcells'
  split_ifs at hcells' with hpos
  · simp at hcells'
  · obtain ⟨row, hrow, rfl⟩ := Option.map_eq_some_iff.mp (List.getElem?_map ▸ hcells')
    exact ⟨row, hrow, hcells⟩

theorem holds_iff {r c : ℕ} {row : Row} (h : l.interior[r]? = some row.cells) :
    l.Holds item r c ↔ Row.At row.cells item c := by
  constructor
  · rintro ⟨cells, hcells, hat⟩
    obtain rfl := Option.some.inj (h.symm.trans hcells)
    exact hat
  · exact fun hat => ⟨_, h, hat⟩

variable (hl : l.Regular) (hsize : ∀ row ∈ l.body, row.size ≠ item)
include hl hsize

/-- **The columns are handed down from row to row.** -/
theorem spans_of_rows {first last : ℕ} (hle : first ≤ last)
    (hrows : ∀ r, first ≤ r → r ≤ last → l.InRow item r) :
    ∃ left right, left ≤ right ∧ ∀ r, first ≤ r → r ≤ last → ∃ row, l.body[r]? = some row ∧
      l.interior[r]? = some row.cells ∧ Row.Spans row item (left + 1) (right + 1) := by
  have hspans : ∀ r, first ≤ r → r ≤ last → ∃ row, l.body[r]? = some row ∧
      l.interior[r]? = some row.cells ∧
        ∃ left right, Row.Spans row item (left + 1) (right + 1) := by
    intro r hr hr'
    obtain ⟨c, hc⟩ := hrows r hr hr'
    obtain ⟨row, hrow, hcells⟩ := hc.exists_row
    have hmem := List.mem_of_getElem? hrow
    obtain ⟨left, right, hs⟩ := Row.exists_spans ((holds_iff hcells).mp hc)
    exact ⟨row, hrow, hcells, left, right,
      (hl.rows row hmem).spans_of_cells (hsize row hmem).symm hs⟩
  obtain ⟨row, hrow, hcells, left, right, hs⟩ := hspans first le_rfl hle
  refine ⟨left, right, by have := hs.le; omega, fun r hr => ?_⟩
  induction r, hr using Nat.le_induction with
  | base => exact fun _ => ⟨row, hrow, hcells, hs⟩
  | succ r hr ih =>
    intro hr'
    obtain ⟨above, habove, -, hs⟩ := ih (by omega)
    obtain ⟨below, hbelow, hcells, left', right', hs'⟩ := hspans (r + 1) (by omega) hr'
    obtain ⟨hleft, hright⟩ := hl.agree_getElem? habove hbelow item _ _ _ _ hs hs'
    exact ⟨below, hbelow, hcells, hleft ▸ hright ▸ hs'⟩

/-- **On a run the cells with the item are a full rectangle**, which is one column to the left of
the span of the item on each of the rows. -/
theorem rectangle_of_run {first last : ℕ} (hrun : l.IsRun item first last) :
    ∃ left right, left ≤ right ∧ ∀ r, first ≤ r → r ≤ last →
      (∀ c, l.Holds item r c ↔ left ≤ c ∧ c ≤ right) ∧
      ∃ row, l.body[r]? = some row ∧ row.spans.find? item = some ⟨left + 1, right + 1⟩ := by
  obtain ⟨left, right, hle, hrows⟩ := spans_of_rows hl hsize hrun.le hrun.inside
  refine ⟨left, right, hle, fun r hr hr' => ?_⟩
  obtain ⟨row, hrow, hcells, hs⟩ := hrows r hr hr'
  have hmem := List.mem_of_getElem? hrow
  refine ⟨fun c => ?_, row, hrow, Row.find?_spans_eq_some_iff.mpr ⟨_, _, by simp, hs⟩⟩
  rw [holds_iff hcells, (hl.rows row hmem).at_iff_of_ne_size (hsize row hmem).symm hs]

omit hl hsize

/-! ### Blocks -/

/-- The rectangle of a longest run of rows with the item. -/
structure IsBlock (l : Layout) (item : Text) (b : Area) : Prop where
  run : l.IsRun item b.top b.bottom
  full : ∀ r, b.top ≤ r → r ≤ b.bottom → ∀ c, l.Holds item r c ↔ b.left ≤ c ∧ c ≤ b.right

include hl hsize

theorem exists_block_iff {r c : ℕ} :
    (∃ b, l.IsBlock item b ∧ b.Contains r c) ↔ l.Holds item r c := by
  constructor
  · rintro ⟨b, hb, htop, hbottom, hcolumns⟩
    exact (hb.full r htop hbottom c).mpr hcolumns
  · intro h
    obtain ⟨first, last, hrun, hfirst, hlast⟩ := exists_isRun ⟨c, h⟩
    obtain ⟨left, right, -, hrect⟩ := rectangle_of_run hl hsize hrun
    refine ⟨⟨first, left, last, right⟩, ⟨hrun, fun r hr hr' => (hrect r hr hr').1⟩, ?_⟩
    exact ⟨hfirst, hlast, ((hrect r hfirst hlast).1 c).mp h⟩

theorem isHull_blocks {a : Area} (ha : l.areas.find? item = some a) :
    Area.IsHull (fun r c => ∃ b, l.IsBlock item b ∧ b.Contains r c) a :=
  (Area.isHull_congr fun _ _ => exists_block_iff hl hsize).mpr (find?_areas_eq_some_iff.mp ha)

theorem holds_iff_contains_of_single_run {a : Area} (ha : l.areas.find? item = some a)
    {first last : ℕ} (hrun : l.IsRun item first last)
    (hsingle : ∀ r, l.InRow item r → first ≤ r ∧ r ≤ last) (r c : ℕ) :
    l.Holds item r c ↔ a.Contains r c := by
  obtain ⟨left, right, hle, hrect⟩ := rectangle_of_run hl hsize hrun
  have hbox : Area.IsHull (l.Holds item) ⟨first, left, last, right⟩ := by
    have hrow := fun r hr hr' => (hrect r hr hr').1
    refine ⟨fun r c h => ?_, ⟨left, ?_⟩, ⟨first, ?_⟩, ⟨left, ?_⟩, ⟨first, ?_⟩⟩
    · obtain ⟨hr, hr'⟩ := hsingle r ⟨c, h⟩
      exact ⟨hr, hr', (hrow r hr hr' c).mp h⟩
    · exact (hrow first le_rfl hrun.le left).mpr ⟨le_rfl, hle⟩
    · exact (hrow first le_rfl hrun.le left).mpr ⟨le_rfl, hle⟩
    · exact (hrow last hrun.le le_rfl left).mpr ⟨le_rfl, hle⟩
    · exact (hrow first le_rfl hrun.le right).mpr ⟨hle, le_rfl⟩
  obtain rfl := hbox.unique (find?_areas_eq_some_iff.mp ha)
  constructor
  · exact fun h => hbox.contains r c h
  · rintro ⟨hr, hr', hc⟩
    exact ((hrect r hr hr').1 c).mpr hc

omit hl hsize

end GridText.Layout

namespace GridText.Plan

/-- **Items are rectangles.** An item that is not spelt like a row size fills, on every longest run
of rows with it, the columns of one interval and no other cell; its area is the least box around
these rectangles, so with a single run it has all cells of its area. -/
theorem items_are_rectangles {rules : Rules} {lines : List Text} {p : Plan} {item : Text}
    (h : ofRows rules lines = .ok p) (hitem : item ∈ p.areas.items)
    (hsize : ∀ row ∈ p.layout.body, row.size ≠ item) :
    (∀ first last, p.layout.IsRun item first last → ∃ left right, left ≤ right ∧
      ∀ r, first ≤ r → r ≤ last → (∀ c, p.layout.Holds item r c ↔ left ≤ c ∧ c ≤ right) ∧
        ∃ row, p.layout.body[r]? = some row ∧
          row.spans.find? item = some ⟨left + 1, right + 1⟩) ∧
    ∃ a, p.areas.find? item = some a ∧
      Area.IsHull (fun r c => ∃ b, p.layout.IsBlock item b ∧ b.Contains r c) a ∧
      ∀ first last, p.layout.IsRun item first last →
        (∀ r, p.layout.InRow item r → first ≤ r ∧ r ≤ last) →
        ∀ r c, p.layout.Holds item r c ↔ a.Contains r c := by
  obtain ⟨l, hread, hp⟩ := Except.bind_eq_ok_iff.mp h
  obtain rfl := Except.pure_eq_ok_iff.mp hp
  have hl := Layout.regular_of_read hread
  obtain ⟨a, ha⟩ := ItemMap.mem_items_iff.mp hitem
  refine ⟨fun first last hrun => Layout.rectangle_of_run hl hsize hrun, a, ha,
    Layout.isHull_blocks hl hsize ha, fun first last hrun hsingle r c => ?_⟩
  exact Layout.holds_iff_contains_of_single_run hl hsize ha hrun hsingle r c

/-- In the layout below `A` has two runs, with other columns in each:
```
       1fr  1fr
  1fr  A    A
  1fr  ..   B
  2fr  C    A
``` -/
theorem two_runs_are_rectangles :
    ∃ p, ofRows {} ["1fr 1fr".toList, "1fr A A".toList, "1fr .. B".toList, "2fr C A".toList] =
        .ok p ∧ ['A'] ∈ p.areas.items ∧ (∀ row ∈ p.layout.body, row.size ≠ ['A']) ∧
      ∃ a, p.areas.find? ['A'] = some a ∧
        Area.IsHull (fun r c => ∃ b, p.layout.IsBlock ['A'] b ∧ b.Contains r c) a := by
  have hread : ofRows {} ["1fr 1fr".toList, "1fr A A".toList, "1fr .. B".toList,
      "2fr C A".toList] = .ok ⟨⟨[["1fr".toList], ["1fr".toList]], [
        [["1fr".toList], [['A']], [['A']]], [["1fr".toList], [], [['B']]],
        [["2fr".toList], [['C']], [['A']]]]⟩, {}⟩ := by decide +kernel
  have hitem : ['A'] ∈ (Plan.mk ⟨[["1fr".toList], ["1fr".toList]], [
      [["1fr".toList], [['A']], [['A']]], [["1fr".toList], [], [['B']]],
      [["2fr".toList], [['C']], [['A']]]]⟩ {}).areas.items := by decide +kernel
  have hsize : ∀ row ∈ [
      [["1fr".toList], [['A']], [['A']]], [["1fr".toList], [], [['B']]],
      [["2fr".toList], [['C']], [['A']]]], Row.size row ≠ ['A'] := by decide +kernel
  obtain ⟨-, a, ha, hull, -⟩ := items_are_rectangles hread hitem hsize
  exact ⟨_, hread, hitem, hsize, a, ha, hull⟩

end GridText.Plan
