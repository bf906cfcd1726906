import GridText.Plan.Basic
import GridText.Proofs.Layout.Interior

/-! # Plans: shape, sizes, areas and empty cells together

The views of a plan are made apart from each other: the shape from the lengths of some rows, the
sizes by the shape, areas and empty cells from the interior. For lines that were read they say the
same (`plans_are_consistent`). The items in their order are those of the interior
(`mem_orderedItems_iff`, `sorted_orderedItems`). -/

namespace GridText.Plan

variable {p : Plan}

/-- **A plan of which all views say the same.** -/
structure Consistent (p : Plan) : Prop where
  /-- The shape is the only one that describes the rows. -/
  shape : ∀ s, p.shape = s ↔ s.Describes p.layout
  /-- A strip of columns takes a child for each header size. -/
  columns : p.shape = .columnOnly → p.trackCount = some p.layout.header.length ∧
    p.columnSizes.length = p.layout.header.length ∧ p.columnSizes ≠ []
  /-- A strip of rows takes a child for each row, the first one included. -/
  rows : p.shape = .rowOnly → p.trackCount = some p.layout.rows.length ∧
    p.rowSizes.length = p.layout.rows.length ∧ p.rowSizes ≠ []
  /-- A strip has no areas and no empty cells. -/
  positional : p.isPositional = true → p.areas = [] ∧ p.emptyCells = []
  /-- Any other plan has a full interior, as high and as wide as there are sizes. -/
  named : p.isPositional = false → p.layout.Tiled p.rowSizes.length p.columnSizes.length
  /-- No cell holds an empty text or the marker alone, or an item twice. -/
  cells : ∀ cells ∈ p.layout.interior, ∀ cell ∈ cells,
    cell ≠ [[]] ∧ cell ≠ [p.rules.marker] ∧ cell.Nodup

/-! ### Sizes -/

theorem length_columnSizes (h : p.shape ≠ .rowOnly) :
    p.columnSizes.length = p.layout.header.length := by
  rw [columnSizes, if_neg h, List.length_map]

theorem length_rowSizes (h : p.shape ≠ .rowOnly) : p.rowSizes.length = p.layout.body.length := by
  rw [rowSizes, if_neg h, List.length_map]

theorem length_rowSizes_of_rowOnly (h : p.shape = .rowOnly) :
    p.rowSizes.length = p.layout.rows.length := by
  rw [rowSizes, if_pos h, List.length_map]

theorem shape_ne_rowOnly (h : p.isPositional = false) : p.shape ≠ .rowOnly :=
  (Shape.isPositional_eq_false_iff.mp h).2

theorem shape_ne_columnOnly (h : p.isPositional = false) : p.shape ≠ .columnOnly :=
  (Shape.isPositional_eq_false_iff.mp h).1

theorem trackCount_eq_none_iff : p.trackCount = none ↔ p.isPositional = false := by
  unfold trackCount isPositional
  cases p.shape with
  | columnOnly | rowOnly => exact iff_of_false (Option.some_ne_none _) (by decide)
  | singleCell | grid => exact iff_of_true rfl rfl

theorem size_of_mem_columnSizes (hvalid : p.layout.Valid p.rules) :
    ∀ size ∈ p.columnSizes, Track.Size size := by
  unfold columnSizes
  split_ifs
  · exact fun size hsize => absurd hsize List.not_mem_nil
  · refine List.forall_mem_map.mpr fun cell hcell => ?_
    obtain ⟨size, hsize, rfl⟩ := hvalid.header cell hcell
    exact hsize

/-- **The row sizes are track sizes**, that of a first line included. -/
theorem size_of_mem_rowSizes (hvalid : p.layout.Valid p.rules) :
    ∀ size ∈ p.rowSizes, Track.Size size := by
  have hbody : ∀ row ∈ p.layout.body, Track.Size row.size := fun row hrow =>
    (hvalid.rows row hrow).size
  unfold rowSizes
  split_ifs
  · refine List.forall_mem_map.mpr (List.forall_mem_cons.mpr ⟨?_, hbody⟩)
    obtain ⟨cell, header, hheader⟩ := List.exists_cons_of_ne_nil hvalid.nonempty
    obtain ⟨size, hsize, rfl⟩ := hvalid.header cell (hheader ▸ List.mem_cons_self)
    rwa [hheader]
  · exact List.forall_mem_map.mpr hbody

/-! ### Items in their order -/

theorem mem_orderedItems_iff {item : Text} :
    item ∈ p.orderedItems ↔ ∃ cells ∈ p.layout.interior, ∃ cell ∈ cells, item ∈ cell := by
  rw [orderedItems, List.mem_mergeSort, areas, Layout.mem_items_areas_iff]
  constructor
  · rintro ⟨r, c, cells, hr, cell, hc, hitem⟩
    exact ⟨cells, List.mem_of_getElem? hr, cell, List.mem_of_getElem? hc, hitem⟩
  · rintro ⟨cells, hcells, cell, hcell, hitem⟩
    obtain ⟨r, hr⟩ := List.mem_iff_getElem?.mp hcells
    obtain ⟨c, hc⟩ := List.mem_iff_getElem?.mp hcell
    exact ⟨r, c, cells, hr, cell, hc, hitem⟩

theorem nodup_orderedItems (p : Plan) : p.orderedItems.Nodup := by
  have hitems : p.areas.items.Nodup := ItemMap.nodup_items_collect _ _
  exact (List.mergeSort_perm p.areas.items Text.le).nodup_iff.mpr hitems

/-- **The ordered items stand in the order of their code points**, each of them once. -/
theorem sorted_orderedItems (p : Plan) :
    p.orderedItems.Pairwise fun s t =>
      List.Lex (· < ·) (s.map Char.toNat) (t.map Char.toNat) := by
  have hle : p.orderedItems.Pairwise fun s t => Text.le s t = true :=
    @List.pairwise_mergeSort _ Text.le (fun _ _ _ => Text.le_trans) Text.le_total p.areas.items
  exact (hle.and p.nodup_orderedItems).imp fun h => Text.lex_of_le h.1 h.2

/-! ### Plans of lines -/

section

variable {rules : Rules} {lines : List Text}

/-- A plan of lines is the layout that is read of them. -/
theorem read_of_ofRows (h : ofRows rules lines = .ok p) :
    p.rules = rules ∧ Layout.read p.rules lines = .ok p.layout := by
  obtain ⟨l, hread, hp⟩ := Except.bind_eq_ok_iff.mp h
  obtain rfl := Except.pure_eq_ok_iff.mp hp
  exact ⟨rfl, hread⟩

theorem tiled_of_valid (hvalid : p.layout.Valid p.rules) (h : p.isPositional = false) :
    p.layout.Tiled p.rowSizes.length p.columnSizes.length := by
  have hinterior := Layout.interior_of_named h
  refine Layout.tiled ?_ ?_
  · rw [hinterior, List.length_map, length_rowSizes (shape_ne_rowOnly h)]
  · rw [hinterior, length_columnSizes (shape_ne_rowOnly h)]
    exact List.forall_mem_map.mpr fun row hrow => hvalid.length_cells h hrow

theorem cell_of_read {l : Layout} (h : Layout.read rules lines = .ok l) {cells : List Cell}
    (hcells : cells ∈ l.interior) {cell : Cell} (hcell : cell ∈ cells) :
    cell ≠ [[]] ∧ cell ≠ [rules.marker] ∧ cell.Nodup := by
  cases hs : l.shape.isPositional with
  | true =>
    rw [Layout.interior_of_positional hs] at hcells
    cases hcells
  | false =>
    rw [Layout.interior_of_named hs] at hcells
    obtain ⟨row, hrow, rfl⟩ := List.mem_map.mp hcells
    have hvalid := (Layout.read_eq_ok_iff_valid.mp h).1.rows row hrow
    have hsep := hvalid.separator (List.ne_nil_of_mem hcell)
    obtain ⟨line, -, entry, hentry, rfl⟩ := Layout.exists_entry_of_read h hrow hcell
    exact ⟨Cell.ofEntry_ne_blank hsep (Token.begins_of_mem_tokens hentry),
      Cell.ofEntry_ne_marker rules entry, hvalid.distinct _ hcell⟩

theorem consistent_of_read (hread : Layout.read p.rules lines = .ok p.layout) : p.Consistent := by
  have hvalid := (Layout.read_eq_ok_iff_valid.mp hread).1
  refine ⟨fun s => hvalid.shape_eq_iff, fun hs => ?_, fun hs => ?_, fun hs => ?_,
    fun hs => tiled_of_valid hvalid hs,
    fun cells hcells cell hcell => cell_of_read hread hcells hcell⟩
  · have hlength : p.columnSizes.length = p.layout.header.length :=
      length_columnSizes (by simp [hs])
    refine ⟨?_, hlength, ?_⟩
    · rw [trackCount, hs, hlength]
    · rw [← List.length_pos_iff, hlength, List.length_pos_iff]
      exact hvalid.nonempty
  · have hlength := length_rowSizes_of_rowOnly hs
    refine ⟨?_, hlength, ?_⟩
    · rw [trackCount, hs, hlength]
    · rw [← List.length_pos_iff, hlength]
      exact Nat.succ_pos _
  · exact ⟨Layout.areas_of_positional hs, Layout.emptyCells_of_positional hs⟩

end

/-- **Plans are consistent.** The shape of a plan is the one that describes its rows; a strip takes
as many children as it has sizes and has neither areas nor empty cells; any other plan has a full
interior with as many rows and columns as there are sizes, in which every area lies and every cell
is either empty and listed once or in the areas of all its items. -/
theorem plans_are_consistent {rules : Rules} {lines : List Text} (h : ofRows rules lines = .ok p) :
    p.rules = rules ∧ p.layout.rows.length = lines.length ∧ p.Consistent := by
  obtain ⟨hrules, hread⟩ := read_of_ofRows h
  exact ⟨hrules, Layout.length_rows_of_read hread, consistent_of_read hread⟩

/-- In the layout below the area of `A` has the cell of `B` in it as well, and one cell is empty:
```
       1fr  2fr
  1fr  A    A,B
  1em  ..   B
  2fr  A    A
``` -/
theorem area_around_others : ∃ p, ofRows {} ["1fr 2fr".toList, "1fr A A,B".toList,
      "1em .. B".toList, "2fr A A".toList] = .ok p ∧ p.Consistent ∧ p.shape = .grid ∧
    p.areas = [(['A'], ⟨0, 0, 2, 1⟩), (['B'], ⟨0, 1, 1, 1⟩)] ∧ p.emptyCells = [⟨1, 0⟩] := by
  have hread : ofRows {} ["1fr 2fr".toList, "1fr A A,B".toList, "1em .. B".toList,
      "2fr A A".toList] = .ok ⟨⟨[["1fr".toList], ["2fr".toList]], [
        [["1fr".toList], [['A']], [['A'], ['B']]], [["1em".toList], [], [['B']]],
        [["2fr".toList], [['A']], [['A']]]]⟩, {}⟩ := by decide +kernel
  obtain ⟨-, -, hconsistent⟩ := plans_are_consistent hread
  exact ⟨_, hread, hconsistent, by decide +kernel, by decide +kernel, by decide +kernel⟩

end GridText.Plan
