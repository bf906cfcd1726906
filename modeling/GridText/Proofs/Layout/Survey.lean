import GridText.Proofs.Layout.Interior

/-! # The interior of any layout: which items, where, and what is empty

Areas and empty cells are made in one pass over the interior, whatever its rows look like: they may
be of any length, and a cell may name an item twice.

* `CellAt`: a cell of the interior, by its place in the layout; `Mentioned`: an item in such a cell.
* `sorted_items_areas`: the areas stand in the order in which their items are first mentioned.
* `interiors_are_surveyed`: the areas and the empty cells of a layout, said of its cells. -/

namespace GridText.Layout

variable {l : Layout} {item : Text}

/-! ### Cells and items -/

/-- **A cell of the interior**: it stands below the header and behind a size, in a layout that is no
strip. -/
def CellAt (l : Layout) (r c : ℕ) (cell : Cell) : Prop :=
  l.shape ≠ .columnOnly ∧ l.shape ≠ .rowOnly ∧
    ∃ row, l.rows[r + 1]? = some row ∧ row[c + 1]? = some cell

/-- The item stands in the cell of the interior at this place. -/
def Mentioned (l : Layout) (item : Text) (r c : ℕ) : Prop := ∃ cell, l.CellAt r c cell ∧ item ∈ cell

/-- What stands below the header and behind the sizes, row by row. -/
def sequence (l : Layout) : List Text := (l.rows.tail.map List.tail).flatten.flatten

theorem cellAt_iff {r c : ℕ} {cell : Cell} : l.CellAt r c cell ↔
    ∃ cells, l.interior[r]? = some cells ∧ cells[c]? = some cell := by
  unfold CellAt
  rw [← and_assoc, ← Shape.isPositional_eq_false_iff]
  cases h : l.shape.isPositional with
  | true => simp [interior_of_positional h]
  | false =>
    simp only [true_and, interior_of_named h, List.getElem?_map, Option.map_eq_some_iff, rows,
      List.getElem?_cons_succ]
    constructor
    · rintro ⟨row, hrow, hcell⟩
      exact ⟨row.cells, ⟨row, hrow, rfl⟩, by rwa [Row.cells, List.drop_one, List.getElem?_tail]⟩
    · rintro ⟨_, ⟨row, hrow, rfl⟩, hcell⟩
      exact ⟨row, hrow, by rwa [Row.cells, List.drop_one, List.getElem?_tail] at hcell⟩

theorem mentioned_iff {r c : ℕ} : l.Mentioned item r c ↔ l.Holds item r c := by
  simp only [Mentioned, cellAt_iff, Holds, Row.At]
  constructor
  · rintro ⟨cell, ⟨cells, hcells, hcell⟩, hitem⟩
    exact ⟨cells, hcells, cell, hcell, hitem⟩
  · rintro ⟨cells, hcells, cell, hcell, hitem⟩
    exact ⟨cell, ⟨cells, hcells, hcell⟩, hitem⟩

/-! ### The order of the items -/

theorem map_fst_places (l : Layout) : l.places.map Prod.fst = l.interior.flatten := by
  rw [places, List.map_flatMap]
  refine (List.flatMap_congr (g := Prod.fst) fun cells _ => ?_).trans ?_
  · rw [List.map_map]
    exact List.zipIdx_map_fst 0 cells.1
  · rw [List.flatMap_def, List.zipIdx_map_fst]

theorem map_fst_mentions (l : Layout) : l.mentions.map (·.1) = l.interior.flatten.flatten := by
  rw [mentions, List.map_flatMap, ← map_fst_places, ← List.flatMap_def]
  refine List.flatMap_congr fun place _ => ?_
  rw [List.map_map]
  exact List.map_id place.1

/-- **The areas stand in the order of first mention.** -/
theorem sorted_items_areas (l : Layout) :
    l.areas.items.Pairwise fun x y => l.sequence.idxOf x < l.sequence.idxOf y := by
  cases h : l.shape.isPositional with
  | true =>
    rw [areas_of_positional h]
    exact .nil
  | false =>
    have hcells : Row.cells = List.tail := funext fun _ => List.drop_one
    have hsequence : l.mentions.map (·.1) = l.sequence := by
      rw [map_fst_mentions, interior_of_named h, sequence, rows, List.tail_cons, hcells]
    have hsorted := ItemMap.sorted_items_collect Area.widen l.mentions
    rwa [hsequence] at hsorted

/-- **Interiors are surveyed.** Whatever the rows of a layout look like, an item has an area exactly
when some cell of the interior mentions it; the items with an area are listed once, in the order in
which they are first mentioned; the area is the least box around the cells that mention the item;
and the empty cells are listed row by row, each once. -/
theorem interiors_are_surveyed (l : Layout) :
    (∀ item, item ∈ l.areas.items ↔ ∃ r c, l.Mentioned item r c) ∧
    l.areas.items.Nodup ∧
    (l.areas.items.Pairwise fun x y => l.sequence.idxOf x < l.sequence.idxOf y) ∧
    (∀ item a, (item, a) ∈ l.areas ↔ Area.IsHull (l.Mentioned item) a) ∧
    (∀ r c, ⟨r, c⟩ ∈ l.emptyCells ↔ l.CellAt r c []) ∧
    l.emptyCells.Pairwise Position.Before := by
  refine ⟨fun item => ?_, ItemMap.nodup_items_collect _ _, l.sorted_items_areas, fun item a => ?_,
    fun r c => ?_, l.sorted_emptyCells⟩
  · simp only [mem_items_areas_iff, mentioned_iff]
  · rw [mem_areas_iff]
    exact Area.isHull_congr fun r c => mentioned_iff.symm
  · rw [mem_emptyCells, mem_places, cellAt_iff]

/-- Rows of three lengths: `A` stands twice in a cell of the first one and again in the last one. Of
the two layouts with one size in the header, the one with sizes alone has no interior. -/
example :
    let ragged : Layout := ⟨[[['1']], [['1']]],
      [[[['2']], [['B'], ['A'], ['A']], []], [[['3']]], [[['4']], [], [['C']], [['A']]]]⟩
    ragged.areas = [(['B'], ⟨0, 0, 0, 0⟩), (['A'], ⟨0, 0, 2, 2⟩), (['C'], ⟨2, 1, 2, 1⟩)] ∧
    ragged.emptyCells = [⟨0, 1⟩, ⟨2, 0⟩] ∧
    Layout.areas ⟨[[['1']]], [[[['2']]], [[['3']]]]⟩ = [] ∧
    Layout.areas ⟨[[['1']]], [[[['2']], [['A']]]]⟩ = [(['A'], ⟨0, 0, 0, 0⟩)] := by
  decide +kernel

end GridText.Layout
