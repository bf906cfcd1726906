import GridText.Proofs.Plan.Drawing

/-! # The preview: its lines are aligned

All lines of a table have their rules at the same offsets, and the text of each cell stands in the
middle between two of them (`Boxed`). This asks for cells that are wide enough, as they are by
default (`measured`).

* `getElem?_frame_row` and its companions: the lines of a frame by their numbers.
* `exists_cellWidth`, `boxed_table`: cells are wide enough, and then a table is aligned.
* `length_of_mem_columnStrip`, `length_of_mem_stack`: the lines of a strip are of one length.
* `previews_are_aligned`: what is drawn of any lines that were read. -/

namespace GridText

open Text (Centred Ruled)

variable {p : Plan} {o : Preview.Options} {chalk : Chalk} {rules : Rules} {lines : List Text}

namespace Preview

/-! ### Frames -/

section

variable {top middle bottom : Text} {rows : List Text} {r : ℕ}

theorem length_frame (h : rows ≠ []) :
    (frame top middle bottom rows).length = 2 * rows.length + 1 := by
  have hpos := List.length_pos_iff.mpr h
  simp only [frame, List.length_append, List.length_cons, List.length_intersperse,
    List.length_nil]
  omega

theorem getElem?_frame_row (h : r < rows.length) :
    (frame top middle bottom rows)[2 * r + 1]? = rows[r]? := by
  have hlt : 2 * r < (rows.intersperse middle).length := by
    rw [List.length_intersperse]
    omega
  rw [frame, List.cons_append, List.getElem?_cons_succ, List.getElem?_append_left hlt,
    List.getElem?_intersperse_two_mul]

theorem getElem?_frame_middle (h : r + 1 < rows.length) :
    (frame top middle bottom rows)[2 * (r + 1)]? = some middle := by
  have hlt : 2 * r + 1 < (rows.intersperse middle).length := by
    rw [List.length_intersperse]
    omega
  rw [frame, List.cons_append, Nat.mul_succ, List.getElem?_cons_succ,
    List.getElem?_append_left hlt, List.getElem?_intersperse_two_mul_add_one h]

theorem getElem?_frame_bottom (h : rows ≠ []) :
    (frame top middle bottom rows)[2 * rows.length]? = some bottom := by
  have hlen : (top :: rows.intersperse middle).length = 2 * rows.length := by
    have hpos := List.length_pos_iff.mpr h
    rw [List.length_cons, List.length_intersperse]
    omega
  rw [frame, ← hlen, List.getElem?_concat_length]

end

end Preview

namespace Plan

open Preview

/-- The texts for which a cell of the table must have room. -/
def measured (p : Plan) (o : Options) : List Text :=
  p.columnSizes ++ p.layout.interior.flatten.map (p.shown o)

/-- **A table with aligned columns.** Its rows are as many as the row sizes; in front of each of
them there is room for the longest row size. -/
structure Boxed (p : Plan) (o : Options) (label width : ℕ) (lines : List Text) : Prop where
  /-- A header, a line for each row, and borders around and between the rows. -/
  height : lines.length = 2 * p.rowSizes.length + 2
  /-- All lines but the header are of the same length. -/
  length : ∀ line ∈ lines.tail,
    line.length = label + p.columnSizes.length * width + p.columnSizes.length + 2
  /-- The header has the column sizes in the middle of their columns; spaces behind the last one
  are cut off. -/
  header : ∀ line ∈ lines[0]?, ∃ gap sizes,
    Ruled ' ' ' ' ' ' (label + 1) width sizes (line ++ Text.spaces gap) ∧
      List.Forall₂ (Centred width) p.columnSizes sizes
  /-- The border over the first row. -/
  top : ∀ line ∈ lines[1]?, Ruled '┌' '┬' '┐' (label + 1) width
    (List.replicate p.columnSizes.length (List.replicate width '─')) line
  /-- The borders between two rows. -/
  between : ∀ r, 0 < r → r < p.rowSizes.length → ∀ line ∈ lines[2 * r + 1]?,
    Ruled '├' '┼' '┤' (label + 1) width
      (List.replicate p.columnSizes.length (List.replicate width '─')) line
  /-- The border under the last row. -/
  bottom : ∀ line ∈ lines[2 * p.rowSizes.length + 1]?, Ruled '└' '┴' '┘' (label + 1) width
    (List.replicate p.columnSizes.length (List.replicate width '─')) line
  /-- The line of a row has the row size in front, at the right of its room, and the texts of the
  cells in the middle of their columns. -/
  row : ∀ r < p.rowSizes.length, ∃ size cells,
    p.rowSizes[r]? = some size ∧ p.layout.interior[r]? = some cells ∧ ∀ line ∈ lines[2 * r + 2]?,
      (∃ gap, line.take label = Text.spaces gap ++ size) ∧ ∃ texts,
        Ruled '│' '│' '│' (label + 1) width texts line ∧
          List.Forall₂ (fun cell text => Centred width (p.shown o cell) text) cells texts

/-! ### The lines of a table -/

theorem length_of_ruled {left middle right : Char} {label width columns : ℕ} {cells : List Text}
    {line : Text} (h : Ruled left middle right (label + 1) width cells line)
    (hcells : cells.length = columns) : line.length = label + columns * width + columns + 2 := by
  rw [h.length, hcells, Nat.mul_succ]
  omega

theorem ruled_edge {left middle right : Char} {columns : ℕ} (h : columns ≠ 0) (label width : ℕ) :
    Ruled left middle right (label + 1) width
      (List.replicate columns (List.replicate width '─'))
      (Text.spaces (label + 1) ++ border left middle right (List.replicate columns width)) := by
  rw [border, List.map_replicate]
  refine Text.ruled_joinWith (by simpa using h) (fun bar hbar => ?_) (Text.length_spaces _)
  rw [List.eq_of_mem_replicate hbar, List.length_replicate]

theorem ruled_tableRow {label width : ℕ} {size : Text} (hsize : size.length ≤ label)
    {cells : List Text} (hne : cells ≠ []) (h : ∀ cell ∈ cells, cell.length = width) :
    Ruled '│' '│' '│' (label + 1) width cells (tableRow label size cells) := by
  have hline : tableRow label size cells = Text.padLeft label size ++ [' '] ++
      ('│' :: Text.joinWith ['│'] cells ++ ['│']) := by
    rw [tableRow, fence, List.append_assoc]
    rfl
  rw [hline]
  refine Text.ruled_joinWith hne h ?_
  rw [List.length_append, Text.length_padLeft, Nat.max_eq_left hsize]
  rfl

theorem take_tableRow {label : ℕ} {size : Text} (hsize : size.length ≤ label) (cells : List Text) :
    ∃ gap, (tableRow label size cells).take label = Text.spaces gap ++ size := by
  refine ⟨label - size.length, ?_⟩
  rw [tableRow, List.take_left' (by rw [Text.length_padLeft, Nat.max_eq_left hsize])]
  rfl

theorem ruled_headerLine (hne : p.columnSizes ≠ []) {width : ℕ}
    (hwide : ∀ size ∈ p.columnSizes, size.length ≤ width)
    (hink : ∀ size ∈ p.columnSizes, Text.EndsInInk size) (label : ℕ) :
    ∃ gap, Ruled ' ' ' ' ' ' (label + 1) width (p.columnSizes.map (Text.center width))
      (p.headerLine label width ++ Text.spaces gap) := by
  obtain ⟨sizes, last, hlast⟩ := (List.eq_nil_or_concat' p.columnSizes).resolve_left hne
  have hends : Text.EndsInInk last := hink last (by rw [hlast]; simp)
  obtain ⟨before, hbefore⟩ : ∃ before,
      Text.joinWith [' '] (p.columnSizes.map (Text.center width)) =
        before ++ Text.center width last := by
    rw [hlast, List.map_append]
    exact Text.exists_joinWith_concat _ _ _
  obtain ⟨gap, hgap⟩ := Text.exists_trimEnd_append_spaces hends before width
  rw [← hbefore] at hgap
  have hline : p.headerLine label width ++ Text.spaces (gap + 1) = Text.spaces (label + 1) ++
      (' ' :: Text.joinWith [' '] (p.columnSizes.map (Text.center width)) ++ [' ']) := by
    conv_rhs => rw [← hgap]
    rw [headerLine, Text.spaces_succ (label + 1), Text.spaces_succ gap]
    simp
  refine ⟨gap + 1, ?_⟩
  rw [hline]
  refine Text.ruled_joinWith (by simpa using hne) (List.forall_mem_map.mpr fun size hsize => ?_)
    (Text.length_spaces _)
  rw [Text.length_center, Nat.max_eq_left (hwide size hsize)]

/-! ### Tables -/

theorem rowSizes_of_named (hnamed : p.isPositional = false) :
    p.rowSizes = p.layout.body.map Row.size := if_neg (shape_ne_rowOnly hnamed)

theorem length_tableRows (hnamed : p.isPositional = false) (o : Options) (chalk : Chalk)
    (label width : ℕ) : (p.tableRows o chalk label width).length = p.rowSizes.length := by
  rw [tableRows, rowSizes_of_named hnamed, List.length_map, List.length_map]

theorem tableRows_ne_nil (hnamed : p.isPositional = false) (o : Options) (chalk : Chalk)
    (label width : ℕ) : p.tableRows o chalk label width ≠ [] := by
  rw [← List.length_pos_iff, length_tableRows hnamed, List.length_pos_iff]
  exact rowSizes_ne_nil (shape_ne_columnOnly hnamed)

/-- **The line of a row** is behind the header and a border for each row up to it. -/
theorem getElem?_table_row {r : ℕ} (hr : r < p.layout.body.length) (o : Options) (chalk : Chalk)
    (label width : ℕ) : (p.table label width (p.tableRows o chalk label width))[2 * r + 2]? =
      some (tableRow label p.layout.body[r].size
        (p.layout.body[r].cells.map (p.drawn o chalk width))) := by
  have hlen : r < (p.tableRows o chalk label width).length := by rwa [tableRows, List.length_map]
  rw [table, List.getElem?_cons_succ, getElem?_frame_row hlen, tableRows, List.getElem?_map,
    List.getElem?_eq_getElem hr, Option.map_some]

theorem getElem?_interior (hnamed : p.isPositional = false) {r : ℕ}
    (hr : r < p.layout.body.length) :
    p.layout.interior[r]? = some p.layout.body[r].cells := by
  rw [Layout.interior_of_named hnamed, List.getElem?_map, List.getElem?_eq_getElem hr,
    Option.map_some]

section

variable (hread : Layout.read p.rules lines = .ok p.layout) (hnamed : p.isPositional = false)

include hread

theorem endsInInk_of_mem_columnSizes : ∀ size ∈ p.columnSizes, Text.EndsInInk size := by
  have hvalid := (Layout.read_eq_ok_iff_valid.mp hread).1
  intro size hsize
  have hsolid := (size_of_mem_columnSizes hvalid size hsize).solid
  exact (hsolid.front Text.blank_nil.stops).exists_concat_ink

/-- The entries that are measured are the texts of the cells. -/
theorem cellWidth_eq (o : Options) :
    p.cellWidth o = o.cellWidth.getD (longest (p.measured o) + 2) := by
  have hentries : p.layout.interior.flatten.map (entry (p.markerShown o)) =
      p.layout.interior.flatten.map (p.shown o) := by
    refine List.map_congr_left fun cell hcell => ?_
    obtain ⟨cells, hcells, hcell⟩ := List.mem_flatten.mp hcell
    exact entry_eq_shown (cell_of_read hread hcells hcell).1
  rw [cellWidth, hentries]
  rfl

include hnamed

theorem length_cells_eq {row : Row} (hrow : row ∈ p.layout.body) :
    row.cells.length = p.columnSizes.length := by
  have hvalid := (Layout.read_eq_ok_iff_valid.mp hread).1
  rw [length_columnSizes (shape_ne_rowOnly hnamed), hvalid.length_cells hnamed hrow]

/-- **The cells of a row are centred** in cells that are wide enough. -/
theorem centred_drawn (hcolour : o.colour = false) {width : ℕ}
    (hwide : ∀ text ∈ p.measured o, text.length ≤ width) {row : Row} (hrow : row ∈ p.layout.body) :
    ∀ cell ∈ row.cells, Centred width (p.shown o cell) (p.drawn o chalk width cell) := by
  intro cell hcell
  have hcells : row.cells ∈ p.layout.interior := by
    rw [Layout.interior_of_named hnamed]
    exact List.mem_map_of_mem hrow
  have hmeasured : p.shown o cell ∈ p.measured o :=
    List.mem_append_right _ (List.mem_map_of_mem (List.mem_flatten_of_mem hcells hcell))
  rw [drawn_of_plain hcolour, entry_eq_shown (cell_of_read hread hcells hcell).1]
  exact Text.centred_center (hwide _ hmeasured)

theorem ruled_row (chalk : Chalk) (hcolour : o.colour = false) {width : ℕ}
    (hwide : ∀ text ∈ p.measured o, text.length ≤ width) {row : Row} (hrow : row ∈ p.layout.body)
    {label : ℕ} (hlabel : row.size.length ≤ label) :
    Ruled '│' '│' '│' (label + 1) width (row.cells.map (p.drawn o chalk width))
      (tableRow label row.size (row.cells.map (p.drawn o chalk width))) := by
  have hvalid := (Layout.read_eq_ok_iff_valid.mp hread).1
  refine ruled_tableRow hlabel ?_ (List.forall_mem_map.mpr fun cell hcell => ?_)
  · rw [← List.length_pos_iff, List.length_map, length_cells_eq hread hnamed hrow,
      List.length_pos_iff]
    exact columnSizes_ne_nil hvalid (shape_ne_rowOnly hnamed)
  · exact (centred_drawn hread hnamed hcolour hwide hrow cell hcell).length_eq

/-- **A table is aligned** if its cells are wide enough. -/
theorem boxed_table (hcolour : o.colour = false) {width : ℕ}
    (hwide : ∀ text ∈ p.measured o, text.length ≤ width) :
    p.Boxed o (longest p.rowSizes) width
      (p.table (longest p.rowSizes) width (p.tableRows o chalk (longest p.rowSizes) width)) := by
  have hvalid := (Layout.read_eq_ok_iff_valid.mp hread).1
  have hcolumns := columnSizes_ne_nil hvalid (shape_ne_rowOnly hnamed)
  have hcount : p.columnSizes.length ≠ 0 := by simpa using hcolumns
  have hsizes := rowSizes_of_named hnamed
  have hheader : ∀ size ∈ p.columnSizes, size.length ≤ width := fun size hsize =>
    hwide size (List.mem_append_left _ hsize)
  have hlabel : ∀ row ∈ p.layout.body, row.size.length ≤ longest p.rowSizes := fun row hrow =>
    length_le_longest (hsizes ▸ List.mem_map_of_mem hrow)
  generalize longest p.rowSizes = label at hlabel ⊢
  have hline {row : Row} (hrow : row ∈ p.layout.body) :=
    ruled_row hread hnamed chalk hcolour hwide hrow (hlabel row hrow)
  have hlen := length_tableRows hnamed o chalk label width
  have hne := tableRows_ne_nil hnamed o chalk label width
  refine ⟨?height, ?length, ?header, ?top, ?between, ?bottom, ?row⟩
  case height => rw [table, List.length_cons, length_frame hne, hlen]
  case length =>
    refine forall_mem_frame ?_ ?_ ?_ (List.forall_mem_map.mpr fun row hrow => ?_)
    · exact length_of_ruled (ruled_edge hcount label width) List.length_replicate
    · exact length_of_ruled (ruled_edge hcount label width) List.length_replicate
    · exact length_of_ruled (ruled_edge hcount label width) List.length_replicate
    · refine length_of_ruled (hline hrow) ?_
      rw [List.length_map, length_cells_eq hread hnamed hrow]
  case header =>
    rintro line ⟨⟩
    obtain ⟨gap, hgap⟩ := ruled_headerLine hcolumns hheader
      (endsInInk_of_mem_columnSizes hread) label
    refine ⟨gap, _, hgap, ?_⟩
    rw [List.forall₂_map_right_iff]
    exact List.forall₂_same.mpr fun size hsize => Text.centred_center (hheader size hsize)
  case top =>
    rintro line ⟨⟩
    exact ruled_edge hcount label width
  case between =>
    intro r hpos hr line hget
    obtain ⟨r, rfl⟩ := Nat.exists_eq_add_one.mpr hpos
    rw [table, List.getElem?_cons_succ, getElem?_frame_middle (hlen ▸ hr)] at hget
    obtain rfl := Option.some.inj hget
    exact ruled_edge hcount label width
  case bottom =>
    intro line hget
    rw [table, List.getElem?_cons_succ, ← hlen, getElem?_frame_bottom hne] at hget
    obtain rfl := Option.some.inj hget
    exact ruled_edge hcount label width
  case row =>
    intro r hr
    have hbody : r < p.layout.body.length := by rwa [hsizes, List.length_map] at hr
    have hrow : p.layout.body[r] ∈ p.layout.body := List.getElem_mem hbody
    refine ⟨p.layout.body[r].size, p.layout.body[r].cells, ?_, getElem?_interior hnamed hbody,
      fun line hget => ?_⟩
    · rw [hsizes, List.getElem?_map, List.getElem?_eq_getElem hbody, Option.map_some]
    · rw [getElem?_table_row hbody] at hget
      obtain rfl := Option.some.inj hget
      refine ⟨take_tableRow (hlabel _ hrow) _, _, hline hrow, ?_⟩
      rw [List.forall₂_map_right_iff]
      exact List.forall₂_same.mpr (centred_drawn hread hnamed hcolour hwide hrow)

/-- **The width of the cells**, where it has room for the texts: the one that is given or, by
default, two more than the longest text. -/
theorem exists_cellWidth (hwide : ∀ given ∈ o.cellWidth, ∀ text ∈ p.measured o,
      (text.length : ℤ) ≤ given) : ∃ width : ℕ, (p.cellWidth o).toNat = width ∧
      (o.cellWidth = some (width : ℤ) ∨
        o.cellWidth = none ∧ (longest? (p.measured o)).map (· + 2) = some width) ∧
      ∀ text ∈ p.measured o, text.length ≤ width := by
  have hvalid := (Layout.read_eq_ok_iff_valid.mp hread).1
  have hne : p.measured o ≠ [] :=
    List.append_ne_nil_of_left_ne_nil (columnSizes_ne_nil hvalid (shape_ne_rowOnly hnamed)) _
  rw [cellWidth_eq hread]
  cases hgiven : o.cellWidth with
  | none =>
    refine ⟨longest (p.measured o) + 2, rfl, Or.inr ⟨rfl, ?_⟩, fun text htext => ?_⟩
    · rw [longest?_eq_some hne]
      rfl
    · exact (length_le_longest htext).trans (Nat.le_add_right _ 2)
  | some given =>
    have hroom := hwide given hgiven
    obtain ⟨text, htext⟩ := List.exists_mem_of_ne_nil _ hne
    have hnonneg : 0 ≤ given := Int.le_trans (Int.natCast_nonneg _) (hroom text htext)
    obtain ⟨width, rfl⟩ := Int.eq_ofNat_of_zero_le hnonneg
    exact ⟨width, rfl, Or.inl rfl, fun text htext => Int.ofNat_le.mp (hroom text htext)⟩

end

/-! ### Strips -/

/-- A line of cells is as long as one of cells that are as wide. -/
theorem length_line_congr (left middle right left' middle' right' : Char) {cells cells' : List Text}
    (h : List.Forall₂ (fun cell cell' => cell.length = cell'.length) cells cells') :
    (left :: Text.joinWith [middle] cells ++ [right]).length =
      (left' :: Text.joinWith [middle'] cells' ++ [right']).length := by
  simp only [List.length_append, List.length_cons, Text.length_joinWith_congr middle middle' h]

theorem length_border (left middle right : Char) (width : ℕ) :
    (border left middle right [width]).length = width + 2 := by
  simp [border, Text.joinWith_singleton]

theorem length_of_mem_columnStrip : ∀ line ∈ p.columnStrip, line.length =
    (border '┌' '┬' '┐' (p.columnSizes.map (·.length + 2))).length := by
  simp only [columnStrip, List.forall_mem_cons]
  refine ⟨trivial, length_line_congr _ _ _ _ _ _ ?_, length_line_congr _ _ _ _ _ _ ?_, by simp⟩
  · simp only [List.forall₂_map_left_iff, List.forall₂_map_right_iff]
    exact List.forall₂_same.mpr fun size _ => by simp
  · exact List.forall₂_same.mpr fun bar _ => rfl

/-- The lines of a strip of rows are of one length, if it has room for the sizes. -/
theorem length_of_mem_stack {width : ℕ} (h : ∀ size ∈ p.rowSizes, size.length ≤ width) :
    ∀ line ∈ p.stack width, line.length = width + 2 := by
  refine forall_mem_frame (length_border _ _ _ width) (length_border _ _ _ width)
    (length_border _ _ _ width) (List.forall_mem_map.mpr fun size hsize => ?_)
  have hcell : (Text.center width size).length = width := by
    rw [Text.length_center, Nat.max_eq_left (h size hsize)]
  simp [fence, Text.joinWith_singleton, hcell]

/-! ### Any lines -/

/-- **What is drawn of a plan**, by its shape. -/
structure Drawn (p : Plan) (o : Options) (lines : List Text) : Prop where
  /-- A layout that is no strip is drawn as a table. The columns are as wide as is asked for, which
  must have room for the texts, or else two characters wider than the longest text. -/
  table : p.isPositional = false →
    (∀ given ∈ o.cellWidth, ∀ text ∈ p.measured o, (text.length : ℤ) ≤ given) →
    ∃ label width : ℕ, longest? p.rowSizes = some label ∧
      (o.cellWidth = some (width : ℤ) ∨
        o.cellWidth = none ∧ (longest? (p.measured o)).map (· + 2) = some width) ∧
      p.Boxed o label width lines
  /-- A strip of columns is drawn as three lines of one length. -/
  columns : p.shape = .columnOnly →
    lines.length = 3 ∧ ∃ length, ∀ line ∈ lines, line.length = length
  /-- A strip of rows is drawn as a line for each of its tracks, with borders around and between
  them, all of one length. -/
  rows : p.shape = .rowOnly → ∃ count length, p.trackCount = some count ∧
    lines.length = 2 * count + 1 ∧ ∀ line ∈ lines, line.length = length

theorem drawn_previewLines (hread : Layout.read p.rules lines = .ok p.layout)
    (hcolour : o.colour = false) : p.Drawn o (p.previewLines o chalk) := by
  refine ⟨fun hnamed hwide => ?_, fun hshape => ?_, fun hshape => ?_⟩
  · have hne := rowSizes_ne_nil (shape_ne_columnOnly hnamed)
    obtain ⟨width, hwidth, hasked, hroom⟩ := exists_cellWidth hread hnamed hwide
    refine ⟨longest p.rowSizes, width, longest?_eq_some hne, hasked, ?_⟩
    rw [previewLines_of_named hnamed, box_eq, hwidth]
    exact boxed_table hread hnamed hcolour hroom
  · have hlines : p.previewLines o chalk = p.columnStrip := by
      rw [previewLines, hshape]
    rw [hlines]
    exact ⟨rfl, _, length_of_mem_columnStrip⟩
  · have hlines : p.previewLines o chalk = p.stack (longest p.rowSizes + 2) := by
      rw [previewLines, hshape]
      rfl
    have hne : p.rowSizes ≠ [] := rowSizes_ne_nil (by simp [hshape])
    refine ⟨p.rowSizes.length, longest p.rowSizes + 2 + 2, ?_, ?_, ?_⟩
    · rw [trackCount, hshape]
    · rw [hlines, stack, length_frame (by simpa using hne), List.length_map]
    · rw [hlines]
      refine length_of_mem_stack fun size hsize => ?_
      exact (length_le_longest hsize).trans (Nat.le_add_right _ 2)

/-- **Previews are aligned.** What was read of any lines without line feeds is drawn, whatever width
is asked for, and the lines of the drawing are aligned. -/
theorem previews_are_aligned (h : ofRows rules lines = .ok p) (hlines : ∀ line ∈ lines, '\n' ∉ line)
    (hcolour : o.colour = false) (hmarker : ∀ marker ∈ o.marker, '\n' ∉ marker) (chalk : Chalk) :
    p.preview? o chalk = some (p.preview o chalk) ∧
      p.Drawn o (Text.splitOn ['\n'] (p.preview o chalk)) := by
  obtain ⟨-, hread⟩ := read_of_ofRows h
  have hvalid := (Layout.read_eq_ok_iff_valid.mp hread).1
  constructor
  · rw [preview?, previewLines?_eq_some hvalid]
    rfl
  · rw [splitOn_preview (oneLine_previewLines hread hlines hcolour hmarker)]
    exact drawn_previewLines hread hcolour

/-- The cells below are six characters wide, so that the spare space of an odd gap is behind the
text; in the header the space behind `20px` is cut off:
```
       1fr    20px
     ┌──────┬──────┐
auto │ A,B  │  --  │
     ├──────┼──────┤
 1fr │  C   │  C   │
     └──────┴──────┘
``` -/
theorem table_with_an_empty_cell : ∃ p,
    ofRows {} ["1fr 20px".toList, "auto A,B ..".toList, "1fr C C".toList] = .ok p ∧
    (∀ line ∈ ["1fr 20px".toList, "auto A,B ..".toList, "1fr C C".toList], '\n' ∉ line) ∧
    p.isPositional = false ∧ p.preview? ⟨none, some "--".toList, false⟩ .terminal =
      some (Text.joinWith ['\n'] (["       1fr    20px", "     ┌──────┬──────┐",
        "auto │ A,B  │  --  │", "     ├──────┼──────┤", " 1fr │  C   │  C   │",
        "     └──────┴──────┘"].map String.toList)) ∧
    p.Boxed ⟨none, some "--".toList, false⟩ 4 6
      (Text.splitOn ['\n'] (p.preview ⟨none, some "--".toList, false⟩)) := by
  obtain ⟨p, hp⟩ : ∃ p, p = Plan.mk ⟨[["1fr".toList], ["20px".toList]],
      [[["auto".toList], [['A'], ['B']], []], [["1fr".toList], [['C']], [['C']]]]⟩ {} := ⟨_, rfl⟩
  have hread : ofRows {} ["1fr 20px".toList, "auto A,B ..".toList, "1fr C C".toList] = .ok p := by
    rw [hp]
    decide +kernel
  have hlines : ∀ line ∈ ["1fr 20px".toList, "auto A,B ..".toList, "1fr C C".toList],
      '\n' ∉ line := by decide
  obtain ⟨hdrawn, haligned⟩ := previews_are_aligned (o := ⟨none, some "--".toList, false⟩) hread
    hlines rfl (by decide) .terminal
  have hnamed : p.isPositional = false := by
    rw [hp]
    decide
  obtain ⟨label, width, hlabel, hwidth, hboxed⟩ := haligned.table hnamed (by rintro _ ⟨⟩)
  have hlongest : longest? p.rowSizes = some 4 := by
    rw [hp]
    decide
  have hdefault : (longest? (p.measured ⟨none, some "--".toList, false⟩)).map (· + 2) = some 6 := by
    rw [hp]
    decide +kernel
  obtain rfl := Option.some.inj (hlongest.symm.trans hlabel)
  obtain ⟨⟨⟩⟩ | ⟨-, hwidth⟩ := hwidth
  obtain rfl := Option.some.inj (hdefault.symm.trans hwidth)
  refine ⟨p, hread, hlines, hnamed, ?_, hboxed⟩
  rw [hdrawn, hp]
  decide +kernel

end Plan

end GridText
