import GridText.Proofs.Layout.Areas
import GridText.Proofs.Layout.Language
import GridText.Proofs.Row.Writing
import Mathlib.Data.List.Nodup

/-! # The interior of a layout

The shape of a layout is told by a few lengths, and for a layout that was read these lengths fix
the number of values of every row (`Valid.shape_eq_iff`). Where there is an interior it is a full
matrix, and its areas and empty cells are about the same cells (`tiled`).

* `Shape.Describes`: what a shape says of all rows.
* `sorted_emptyCells`, `mem_emptyCells`: the empty cells in the order of reading, each once.
* `Tiled`: areas in bounds, and every cell either empty or in the areas of its items.
* `Cell.ofEntry_ne_marker`, `Cell.ofEntry_ne_blank`: cells that are not read. -/

namespace GridText

open Text (Begins)

variable {rules : Rules}

/-- **What a shape says of the rows of a layout.** -/
def Shape.Describes (l : Layout) : Shape → Prop
  | columnOnly => l.rows.length = 1
  | rowOnly => l.rows.length ≠ 1 ∧ ∀ row ∈ l.rows, row.length = 1
  | singleCell => l.rows.length ≠ 1 ∧ l.header.length = 1 ∧ ∀ row ∈ l.body, row.length = 2
  | grid => l.rows.length ≠ 1 ∧ 2 ≤ l.header.length ∧
      ∀ row ∈ l.body, row.length = l.header.length + 1

theorem Shape.isPositional_eq_false_iff {s : Shape} :
    s.isPositional = false ↔ s ≠ .columnOnly ∧ s ≠ .rowOnly := by
  cases s <;> simp [isPositional]

/-- A cell stands before another one in the order of reading, row by row. -/
def Position.Before (p q : Position) : Prop :=
  p.row < q.row ∨ (p.row = q.row ∧ p.column < q.column)

theorem Position.Before.ne {p q : Position} (h : p.Before q) : p ≠ q := by
  rintro rfl
  simp only [Before] at h
  omega

namespace Layout

variable {l : Layout} {item : Text}

/-! ### Shapes -/

theorem length_rows_eq_one_iff : l.rows.length = 1 ↔ l.body = [] := by simp [rows]

theorem shape_of_describes {s : Shape} (h : s.Describes l) : l.shape = s := by
  unfold shape
  cases s with
  | columnOnly => rw [if_pos (length_rows_eq_one_iff.mp h)]
  | rowOnly =>
    obtain ⟨hbody, hrows⟩ := h
    obtain ⟨hheader, hrows⟩ := List.forall_mem_cons.mp hrows
    rw [if_neg (hbody ∘ length_rows_eq_one_iff.mpr), if_pos hheader, if_pos (by simpa using hrows)]
  | singleCell =>
    obtain ⟨hbody, hheader, hrows⟩ := h
    have hne := hbody ∘ length_rows_eq_one_iff.mpr
    obtain ⟨row, body, hcons⟩ := List.exists_cons_of_ne_nil hne
    have hrow := hrows row (hcons ▸ List.mem_cons_self)
    rw [if_neg hne, if_pos hheader, if_neg (by simp [hcons, hrow])]
  | grid =>
    obtain ⟨hbody, hheader, -⟩ := h
    rw [if_neg (hbody ∘ length_rows_eq_one_iff.mpr), if_neg (by omega)]

theorem Valid.describes (h : l.Valid rules) : l.shape.Describes l := by
  obtain ⟨n, hfits, hlen⟩ := h.width
  have hpos := List.length_pos_iff.mpr h.nonempty
  unfold shape
  split_ifs with hbody hheader hall
  · exact length_rows_eq_one_iff.mpr hbody
  · refine ⟨hbody ∘ length_rows_eq_one_iff.mp, List.forall_mem_cons.mpr ⟨hheader, ?_⟩⟩
    simpa using hall
  · refine ⟨hbody ∘ length_rows_eq_one_iff.mp, hheader, fun row hrow => ?_⟩
    have hone : n ≠ 1 := by
      rintro rfl
      exact hall (by simpa using hlen)
    have := hlen row hrow
    unfold Fits at hfits
    omega
  · refine ⟨hbody ∘ length_rows_eq_one_iff.mp, by omega, fun row hrow => ?_⟩
    have := hlen row hrow
    unfold Fits at hfits
    omega

/-- **Exactly one shape describes a layout that was read**: its own. -/
theorem Valid.shape_eq_iff (h : l.Valid rules) {s : Shape} : l.shape = s ↔ s.Describes l :=
  ⟨fun e => e ▸ h.describes, shape_of_describes⟩

/-! ### The matrix -/

theorem interior_of_positional (h : l.shape.isPositional = true) : l.interior = [] := if_pos h

theorem interior_of_named (h : l.shape.isPositional = false) :
    l.interior = l.body.map Row.cells := if_neg (by simp [h])

theorem exists_row_of_mem_interior {cells : List Cell} (h : cells ∈ l.interior) :
    ∃ row ∈ l.body, row.cells = cells := by
  unfold interior at h
  split_ifs at h
  · exact absurd h List.not_mem_nil
  · exact List.mem_map.mp h

/-- The rows of an interior have as many cells as there are column sizes. -/
theorem Valid.length_cells (h : l.Valid rules) (hnamed : l.shape.isPositional = false) {row : Row}
    (hrow : row ∈ l.body) : row.cells.length = l.header.length := by
  have hdesc := h.describes
  rw [Row.cells, List.length_drop]
  cases hs : l.shape with
  | columnOnly | rowOnly =>
    rw [hs] at hnamed
    cases hnamed
  | singleCell =>
    rw [hs] at hdesc
    obtain ⟨-, hheader, hrows⟩ := hdesc
    rw [hheader, hrows row hrow]
  | grid =>
    rw [hs] at hdesc
    obtain ⟨-, -, hrows⟩ := hdesc
    rw [hrows row hrow, Nat.add_sub_cancel]

theorem places_of_positional (h : l.shape.isPositional = true) : l.places = [] := by
  rw [places, interior_of_positional h]
  rfl

theorem areas_of_positional (h : l.shape.isPositional = true) : l.areas = [] := by
  rw [areas, mentions, places_of_positional h]
  rfl

theorem emptyCells_of_positional (h : l.shape.isPositional = true) : l.emptyCells = [] := by
  rw [emptyCells, places_of_positional h]
  rfl

/-! ### Empty cells -/

/-- **The cells are visited row by row.** -/
theorem sorted_places (l : Layout) : l.places.Pairwise fun a b => a.2.Before b.2 := by
  refine List.pairwise_flatMap.mpr
    ⟨fun a _ => ?_, (Row.sorted_zipIdx l.interior).imp fun {a b} hab x hx y hy => ?_⟩
  · rw [List.pairwise_map]
    exact (Row.sorted_zipIdx a.1).imp fun hcd => Or.inr ⟨rfl, hcd⟩
  · obtain ⟨_, -, rfl⟩ := List.mem_map.mp hx
    obtain ⟨_, -, rfl⟩ := List.mem_map.mp hy
    exact Or.inl hab

theorem mem_emptyCells {p : Position} : p ∈ l.emptyCells ↔ ([], p) ∈ l.places := by
  simp only [emptyCells, List.mem_filterMap, Option.ite_none_right_eq_some, Option.some.injEq,
    Prod.exists]
  constructor
  · rintro ⟨_, _, hplace, rfl, rfl⟩
    exact hplace
  · exact fun hplace => ⟨[], p, hplace, rfl, rfl⟩

/-- **The empty cells are listed row by row**, and so each of them once. -/
theorem sorted_emptyCells (l : Layout) : l.emptyCells.Pairwise Position.Before := by
  refine l.sorted_places.filterMap _ ?_
  rintro ⟨_, p⟩ ⟨_, q⟩ hpq p' hp q' hq
  simp only [Option.ite_none_right_eq_some, Option.some.injEq] at hp hq
  obtain ⟨-, rfl⟩ := hp
  obtain ⟨-, rfl⟩ := hq
  exact hpq

theorem nodup_emptyCells (l : Layout) : l.emptyCells.Nodup :=
  l.sorted_emptyCells.imp fun h => h.ne

/-! ### Areas and cells together -/

/-- **A full interior of so many rows and columns**, in which the areas and the empty cells say of
every cell what it holds. -/
structure Tiled (l : Layout) (rows columns : ℕ) : Prop where
  /-- The interior has so many rows. -/
  height : l.interior.length = rows
  /-- Each of them has so many cells. -/
  width : ∀ cells ∈ l.interior, cells.length = columns
  /-- The areas lie in it. -/
  bounds : ∀ item a, (item, a) ∈ l.areas →
    a.top ≤ a.bottom ∧ a.bottom < rows ∧ a.left ≤ a.right ∧ a.right < columns
  /-- A cell is empty and listed once, or it holds items of which the areas contain it. -/
  cells : ∀ r c cells cell, l.interior[r]? = some cells → cells[c]? = some cell →
    (cell = [] ∧ l.emptyCells.count ⟨r, c⟩ = 1) ∨
      (cell ≠ [] ∧ ⟨r, c⟩ ∉ l.emptyCells ∧
        ∀ item ∈ cell, ∃ a, (item, a) ∈ l.areas ∧ a.Contains r c)

theorem mem_areas_iff {a : Area} : (item, a) ∈ l.areas ↔ Area.IsHull (l.Holds item) a := by
  have hnodup : l.areas.items.Nodup := ItemMap.nodup_items_collect _ _
  rw [ItemMap.mem_iff_find? hnodup]
  exact find?_areas_eq_some_iff

theorem Holds.lt {columns r c : ℕ} (hcolumns : ∀ cells ∈ l.interior, cells.length = columns)
    (h : l.Holds item r c) : r < l.interior.length ∧ c < columns := by
  obtain ⟨cells, hcells, hat⟩ := h
  refine ⟨(List.getElem?_eq_some_iff.mp hcells).1, ?_⟩
  rw [← hcolumns cells (List.mem_of_getElem? hcells)]
  exact hat.lt_length

/-- The areas of a full interior lie in it. -/
theorem bounds_of_mem_areas {columns : ℕ}
    (hcolumns : ∀ cells ∈ l.interior, cells.length = columns) {a : Area}
    (h : (item, a) ∈ l.areas) :
    a.top ≤ a.bottom ∧ a.bottom < l.interior.length ∧ a.left ≤ a.right ∧ a.right < columns := by
  have hhull := mem_areas_iff.mp h
  obtain ⟨c, hbottom⟩ := hhull.bottom
  obtain ⟨r, hright⟩ := hhull.right
  obtain ⟨htop, -, -, -⟩ := hhull.contains _ _ hbottom
  obtain ⟨-, -, hleft, -⟩ := hhull.contains _ _ hright
  exact ⟨htop, (hbottom.lt hcolumns).1, hleft, (hright.lt hcolumns).2⟩

/-- **A full interior is tiled**: its areas and empty cells are about the same cells. -/
theorem tiled {rows columns : ℕ} (hrows : l.interior.length = rows)
    (hcolumns : ∀ cells ∈ l.interior, cells.length = columns) : l.Tiled rows columns := by
  subst hrows
  refine ⟨rfl, hcolumns, fun item a h => bounds_of_mem_areas hcolumns h, ?_⟩
  intro r c cells cell hcells hcell
  have hplace := mem_places.mpr ⟨cells, hcells, hcell⟩
  by_cases hnil : cell = []
  · subst hnil
    exact Or.inl ⟨rfl, List.count_eq_one_of_mem l.nodup_emptyCells (mem_emptyCells.mpr hplace)⟩
  · refine Or.inr ⟨hnil, fun hmem => ?_, fun item hitem => ?_⟩
    · obtain ⟨cells', hcells', hcell'⟩ := mem_places.mp (mem_emptyCells.mp hmem)
      obtain rfl := Option.some.inj (hcells.symm.trans hcells')
      exact hnil (Option.some.inj (hcell.symm.trans hcell'))
    · have hholds : l.Holds item r c := ⟨cells, hcells, cell, hcell, hitem⟩
      obtain ⟨a, ha⟩ := ItemMap.mem_items_iff.mp (mem_items_areas_iff.mpr ⟨r, c, hholds⟩)
      have hhull := find?_areas_eq_some_iff.mp ha
      exact ⟨a, mem_areas_iff.mpr hhull, hhull.contains r c hholds⟩

end Layout

/-! ### Cells that are not read -/

namespace Cell

/-- The marker on its own is never an item. -/
theorem ofEntry_ne_marker (rules : Rules) (entry : Text) :
    ofEntry rules entry ≠ [rules.marker] := by
  unfold ofEntry ofParts
  split_ifs with h
  · exact (List.cons_ne_nil _ _).symm
  · exact h

/-- An empty text is never the only item of a cell. -/
theorem ofEntry_ne_blank (hsep : rules.separator ≠ []) {entry : Text} (hb : Begins entry) :
    ofEntry rules entry ≠ [[]] := by
  unfold ofEntry ofParts
  split_ifs
  · exact (List.cons_ne_nil _ _).symm
  · intro h
    -- the parts are joined to the entry without some of its blanks
    obtain ⟨c, rest, htidy, -⟩ := (Text.sheds_tidy hsep entry).begins hb
    rw [Text.tidy, ← parts, h, Text.joinWith_singleton] at htidy
    cases htidy

end Cell

end GridText
