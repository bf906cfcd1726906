import GridText.Plan.Preview
import GridText.Proofs.Layout.Writing
import GridText.Proofs.Plan.Geometry
import GridText.Proofs.Text.Pad

/-! # The preview: what it looks up, and its lines

A drawing measures the longest of some texts and looks up the first item of a cell among the items
of the plan. Where there is no text to measure, or the item is not known, it would have no value.
`Plan.preview?` is the drawing with each of these steps written as one that may fail.

* `previewLines?_eq_some`: for lines that were read no step fails.
* `oneLine_previewLines`: no line of the drawing is broken, if no line that was read is.
* `splitOn_preview`: the lines of the drawing are those of its text. -/

namespace GridText

variable {p : Plan} {o : Preview.Options} {chalk : Chalk} {rules : Rules} {lines : List Text}

/-! ### Looking up -/

theorem mapM_eq_some_map {α β : Type} {f : α → Option β} {g : α → β} {l : List α}
    (h : ∀ a ∈ l, f a = some (g a)) : l.mapM f = some (l.map g) := by
  induction l with
  | nil => rfl
  | cons a l ih =>
    obtain ⟨ha, hl⟩ := List.forall_mem_cons.mp h
    rw [List.mapM_cons, ha, ih hl]
    rfl

namespace Preview

/-- The length of the longest text, if there is a text. -/
def longest? (texts : List Text) : Option ℕ := (texts.map List.length).max?

/-- The colour of a cell by the rank of its first item, which must be one of the given items. An
empty cell has no colour, and none has one in a drawing without colours. -/
def findColour? (palette : List (Text → Text)) (items : List Text) (colour : Bool) :
    Cell → Option (Option (Text → Text))
  | [] => some none
  | item :: _ => do
    let rank ← items.idxOf? item
    if colour then (palette[rank % palette.length]?).map some else some none

theorem longest?_eq_some {texts : List Text} (h : texts ≠ []) :
    longest? texts = some (longest texts) := by
  have hlen : texts.map List.length ≠ [] := by simpa using h
  obtain ⟨n, hn⟩ := Option.isSome_iff_exists.mp (List.isSome_max?_iff.mpr hlen)
  have hfold : longest texts = (texts.map List.length).foldl max 0 := by
    rw [longest, List.foldl_map]
  rw [longest?, hn, hfold, List.foldl_max, hn, Option.getD_some, Nat.zero_max]

theorem length_le_longest {texts : List Text} {text : Text} (h : text ∈ texts) :
    text.length ≤ longest texts :=
  (Text.foldl_max_length_le_iff.mp (le_refl (longest texts))).2 text h

theorem findColour?_eq_some {palette : List (Text → Text)} (hne : palette ≠ [])
    {items : List Text} {cell : Cell} (h : ∀ item ∈ cell.head?, item ∈ items) (colour : Bool) :
    findColour? palette items colour cell =
      some (if colour then colour? palette items cell else none) := by
  cases cell with
  | nil => cases colour <;> rfl
  | cons item others =>
    obtain ⟨rank, hrank⟩ := Option.isSome_iff_exists.mp (List.isSome_idxOf?.mpr (h item rfl))
    have hidx : items.idxOf item = rank := by
      rw [List.idxOf_eq_getD_idxOf?, hrank, Option.getD_some]
    have hlt : rank % palette.length < palette.length := Nat.mod_lt _ (List.length_pos_iff.mpr hne)
    have hfound := List.getElem?_eq_getElem hlt
    cases colour with
    | false => simp [findColour?, hrank]
    | true => simp [findColour?, colour?, hrank, hidx, hfound]

end Preview

namespace Plan

open Preview

/-- The lines of a table, those of its rows given. -/
def table (p : Plan) (label width : ℕ) (rows : List Text) : List Text :=
  let edge (left middle right : Char) : Text :=
    Text.spaces (label + 1) ++ border left middle right (List.replicate p.columnSizes.length width)
  p.headerLine label width :: frame (edge '┌' '┬' '┐') (edge '├' '┼' '┤') (edge '└' '┴' '┘') rows

/-- The line of a row: its size and its cells as they are drawn. -/
def tableRow (label : ℕ) (size : Text) (cells : List Text) : Text :=
  Text.padLeft label size ++ ' ' :: fence cells

/-- The lines of a strip of rows of this width. -/
def stack (p : Plan) (width : ℕ) : List Text :=
  frame (border '┌' '─' '┐' [width]) (border '├' '─' '┤' [width]) (border '└' '─' '┘' [width])
    (p.rowSizes.map fun size => fence [Text.center width size])

/-- A cell of the table as it is drawn. -/
def drawn (p : Plan) (o : Options) (chalk : Chalk) (width : ℕ) (cell : Cell) : Text :=
  drawCell width (p.markerShown o)
    (if o.colour then colour? chalk.palette p.orderedItems cell else none) cell

/-- The lines of the rows. -/
def tableRows (p : Plan) (o : Options) (chalk : Chalk) (label width : ℕ) : List Text :=
  p.layout.body.map fun row => tableRow label row.size (row.cells.map (p.drawn o chalk width))

theorem box_eq (p : Plan) (o : Options) (chalk : Chalk) :
    p.box o chalk = p.table (longest p.rowSizes) (p.cellWidth o).toNat
      (p.tableRows o chalk (longest p.rowSizes) (p.cellWidth o).toNat) := rfl

theorem previewLines_of_named (hnamed : p.isPositional = false) (o : Options) (chalk : Chalk) :
    p.previewLines o chalk = p.box o chalk := by
  obtain ⟨hcolumns, hrows⟩ := Shape.isPositional_eq_false_iff.mp hnamed
  unfold previewLines
  split
  · exact absurd ‹_› hcolumns
  · exact absurd ‹_› hrows
  · rfl
  · rfl

/-- The **width of a cell**, for which there must be a text to measure if it is not given. -/
def cellWidth? (p : Plan) (o : Options) : Option ℤ :=
  match o.cellWidth with
  | some width => some width
  | none => (longest? (p.columnSizes ++
      p.layout.interior.flatten.map (entry (p.markerShown o)))).map fun n => (n : ℤ) + 2

/-- A cell of the table as it is drawn, if its colour is found. -/
def drawn? (p : Plan) (o : Options) (chalk : Chalk) (width : ℕ) (cell : Cell) : Option Text :=
  (findColour? chalk.palette p.orderedItems o.colour cell).map
    (drawCell width (p.markerShown o) · cell)

/-- The **table, with every step that may fail.** -/
def box? (p : Plan) (o : Options) (chalk : Chalk) : Option (List Text) := do
  let width ← p.cellWidth? o
  let label ← longest? p.rowSizes
  let rows ← (p.rowSizes.zip p.layout.interior).mapM fun (size, cells) =>
    (cells.mapM (p.drawn? o chalk width.toNat)).map (tableRow label size)
  return p.table label width.toNat rows

/-- The **lines of the drawing, with every step that may fail.** -/
def previewLines? (p : Plan) (o : Options) (chalk : Chalk) : Option (List Text) :=
  match p.shape with
  | .columnOnly => some p.columnStrip
  | .rowOnly => (longest? p.rowSizes).map fun n => p.stack (n + 2)
  | .singleCell | .grid => p.box? o chalk

/-- The **drawing, with every step that may fail.** -/
def preview? (p : Plan) (o : Options) (chalk : Chalk) : Option Text :=
  (p.previewLines? o chalk).map (Text.joinWith ['\n'])

/-! ### No step fails -/

theorem cellWidth?_eq_some (h : p.columnSizes ≠ []) : p.cellWidth? o = some (p.cellWidth o) := by
  unfold cellWidth? cellWidth
  cases o.cellWidth with
  | some width => rfl
  | none =>
    rw [longest?_eq_some (List.append_ne_nil_of_left_ne_nil h _)]
    rfl

theorem drawn?_eq_some {cells : List Cell} (hcells : cells ∈ p.layout.interior) {cell : Cell}
    (hcell : cell ∈ cells) (width : ℕ) :
    p.drawn? o chalk width cell = some (p.drawn o chalk width cell) := by
  have hne : chalk.palette ≠ [] := List.cons_ne_nil _ _
  rw [drawn?, findColour?_eq_some hne fun item hitem =>
    mem_orderedItems_iff.mpr ⟨cells, hcells, cell, hcell, List.mem_of_mem_head? hitem⟩]
  rfl

theorem tableRows_eq_some (hnamed : p.isPositional = false) (label width : ℕ) :
    (p.rowSizes.zip p.layout.interior).mapM (fun (size, cells) =>
      (cells.mapM (p.drawn? o chalk width)).map (tableRow label size)) =
        some (p.tableRows o chalk label width) := by
  have hsizes : p.rowSizes = p.layout.body.map Row.size := if_neg (shape_ne_rowOnly hnamed)
  have hinterior := Layout.interior_of_named hnamed
  rw [hsizes, hinterior, List.zip_map', List.mapM_map]
  refine mapM_eq_some_map fun row hrow => ?_
  have hcells : row.cells ∈ p.layout.interior := hinterior ▸ List.mem_map_of_mem hrow
  have hdrawn : row.cells.mapM (p.drawn? o chalk width) =
      some (row.cells.map (p.drawn o chalk width)) :=
    mapM_eq_some_map fun cell hcell => drawn?_eq_some hcells hcell width
  show (row.cells.mapM (p.drawn? o chalk width)).map _ = _
  rw [hdrawn]
  rfl

theorem box?_eq_some (hnamed : p.isPositional = false) (hcolumns : p.columnSizes ≠ [])
    (hrows : p.rowSizes ≠ []) : p.box? o chalk = some (p.box o chalk) := by
  rw [box?, cellWidth?_eq_some hcolumns, longest?_eq_some hrows, box_eq]
  simp only [Option.bind_eq_bind, Option.bind_some, tableRows_eq_some hnamed]
  rfl

theorem columnSizes_ne_nil (hvalid : p.layout.Valid p.rules) (h : p.shape ≠ .rowOnly) :
    p.columnSizes ≠ [] := by
  rw [← List.length_pos_iff, length_columnSizes h, List.length_pos_iff]
  exact hvalid.nonempty

theorem rowSizes_ne_nil (h : p.shape ≠ .columnOnly) : p.rowSizes ≠ [] := by
  rw [← List.length_pos_iff]
  by_cases hrow : p.shape = .rowOnly
  · rw [length_rowSizes_of_rowOnly hrow]
    exact Nat.succ_pos _
  · rw [length_rowSizes hrow, List.length_pos_iff]
    exact fun hbody => h (Layout.shape_of_describes (Layout.length_rows_eq_one_iff.mpr hbody))

/-- **No step of a drawing fails** for a valid layout, however wide its cells are to be. -/
theorem previewLines?_eq_some (hvalid : p.layout.Valid p.rules) (o : Options) (chalk : Chalk) :
    p.previewLines? o chalk = some (p.previewLines o chalk) := by
  unfold previewLines? previewLines
  cases hshape : p.shape with
  | columnOnly => rfl
  | rowOnly =>
    have hne : p.shape ≠ .columnOnly := by simp [hshape]
    simp only [longest?_eq_some (rowSizes_ne_nil hne), Option.map_some]
    rfl
  | singleCell | grid =>
    have hnamed : p.isPositional = false := by
      rw [isPositional, hshape]
      rfl
    exact box?_eq_some hnamed (columnSizes_ne_nil hvalid (shape_ne_rowOnly hnamed))
      (rowSizes_ne_nil (shape_ne_columnOnly hnamed))

/-! ### The text of a cell -/

/-- The **text of a cell**: its items with commas between them, or the marker if there is none. -/
def shown (p : Plan) (o : Options) (cell : Cell) : Text :=
  if cell = [] then p.markerShown o else Text.joinWith [','] cell

theorem entry_eq_shown {cell : Cell} (h : cell ≠ [[]]) :
    entry (p.markerShown o) cell = p.shown o cell := by
  unfold entry shown
  rcases cell with _ | ⟨item, _ | ⟨second, others⟩⟩
  · rfl
  · have hitem : item ≠ [] := fun he => h (by rw [he])
    simp [Text.joinWith_singleton, hitem]
  · simp [Text.joinWith_cons_cons]

end Plan

/-! ### Lines -/

namespace Preview

open Text

/-- The characters that a drawing puts around its texts. -/
def marks : List Char := [' ', '─', '│', '┌', '┬', '┐', '├', '┼', '┤', '└', '┴', '┘']

theorem ne_of_mem_marks {c d : Char} (hc : c ∉ marks) (hd : d ∈ marks) : c ≠ d := by
  rintro rfl
  exact hc hd

theorem not_mem_border {c left middle right : Char} (hc : c ∉ marks) (hleft : left ∈ marks)
    (hmiddle : middle ∈ marks) (hright : right ∈ marks) (widths : List ℕ) :
    c ∉ border left middle right widths := by
  have hbar : c ≠ '─' := ne_of_mem_marks hc (by decide)
  have hbars : c ∉ joinWith [middle] (widths.map (List.replicate · '─')) := by
    refine not_mem_joinWith (mt List.mem_singleton.mp (ne_of_mem_marks hc hmiddle)) ?_
    exact List.forall_mem_map.mpr fun width _ h => hbar (List.eq_of_mem_replicate h)
  unfold border
  simp only [List.mem_append, List.mem_cons, List.not_mem_nil, or_false, not_or]
  exact ⟨⟨ne_of_mem_marks hc hleft, hbars⟩, ne_of_mem_marks hc hright⟩

theorem not_mem_fence {c : Char} (hc : c ∉ marks) {cells : List Text}
    (h : ∀ cell ∈ cells, c ∉ cell) : c ∉ fence cells := by
  have hrule : c ≠ '│' := ne_of_mem_marks hc (by decide)
  have hcells : c ∉ joinWith ['│'] cells :=
    not_mem_joinWith (mt List.mem_singleton.mp hrule) h
  unfold fence
  simp only [List.mem_append, List.mem_cons, List.not_mem_nil, or_false, not_or]
  exact ⟨⟨hrule, hcells⟩, hrule⟩

theorem mem_intersperse {α : Type} {a middle : α} {l : List α} (h : a ∈ l.intersperse middle) :
    a = middle ∨ a ∈ l := by
  induction l with
  | nil => cases h
  | cons first l ih =>
    cases l with
    | nil => exact Or.inr h
    | cons second l =>
      rcases List.mem_cons.mp h with rfl | h
      · exact Or.inr List.mem_cons_self
      · rcases List.mem_cons.mp h with rfl | h
        · exact Or.inl rfl
        · exact (ih h).imp_right (List.mem_cons_of_mem first)

theorem forall_mem_frame {P : Text → Prop} {top middle bottom : Text} {rows : List Text}
    (htop : P top) (hmiddle : P middle) (hbottom : P bottom) (hrows : ∀ row ∈ rows, P row) :
    ∀ line ∈ frame top middle bottom rows, P line := by
  intro line hline
  rcases List.mem_append.mp hline with hline | hline
  · rcases List.mem_cons.mp hline with rfl | hline
    · exact htop
    · rcases mem_intersperse hline with rfl | hrow
      · exact hmiddle
      · exact hrows line hrow
  · obtain rfl := List.mem_singleton.mp hline
    exact hbottom

end Preview

namespace Plan

open Preview Text

section

variable {c : Char} (hc : c ∉ marks)

include hc

theorem not_mem_columnStrip (h : ∀ size ∈ p.columnSizes, c ∉ size) :
    ∀ line ∈ p.columnStrip, c ∉ line := by
  have hspace : c ≠ ' ' := ne_of_mem_marks hc (by decide)
  have hfence : c ∉ fence (p.columnSizes.map fun size => ' ' :: size ++ [' ']) := by
    refine not_mem_fence hc (List.forall_mem_map.mpr fun size hsize => ?_)
    simp only [List.mem_append, List.mem_cons, List.not_mem_nil, or_false, not_or]
    exact ⟨⟨hspace, h size hsize⟩, hspace⟩
  simp only [columnStrip, List.forall_mem_cons]
  exact ⟨not_mem_border hc (by decide) (by decide) (by decide) _, hfence,
    not_mem_border hc (by decide) (by decide) (by decide) _, by simp⟩

theorem not_mem_stack (h : ∀ size ∈ p.rowSizes, c ∉ size) (width : ℕ) :
    ∀ line ∈ p.stack width, c ∉ line := by
  have hspace : c ≠ ' ' := ne_of_mem_marks hc (by decide)
  have hrow : ∀ size ∈ p.rowSizes, c ∉ fence [center width size] := fun size hsize =>
    not_mem_fence hc (List.forall_mem_singleton.mpr (not_mem_center hspace (h size hsize) width))
  refine forall_mem_frame ?_ ?_ ?_ (List.forall_mem_map.mpr hrow)
  all_goals exact not_mem_border hc (by decide) (by decide) (by decide) _

theorem not_mem_headerLine (h : ∀ size ∈ p.columnSizes, c ∉ size) (label width : ℕ) :
    c ∉ p.headerLine label width := by
  have hspace : c ≠ ' ' := ne_of_mem_marks hc (by decide)
  have hsizes : c ∉ joinWith [' '] (p.columnSizes.map (center width)) := by
    refine not_mem_joinWith (mt List.mem_singleton.mp hspace) ?_
    exact List.forall_mem_map.mpr fun size hsize => not_mem_center hspace (h size hsize) width
  unfold headerLine
  rw [List.mem_append, not_or]
  exact ⟨not_mem_spaces hspace _, fun h => hsizes (mem_of_mem_trimEnd h)⟩

theorem not_mem_table (hcolumns : ∀ size ∈ p.columnSizes, c ∉ size) {rows : List Text}
    (hrows : ∀ row ∈ rows, c ∉ row) (label width : ℕ) :
    ∀ line ∈ p.table label width rows, c ∉ line := by
  have hspace : c ≠ ' ' := ne_of_mem_marks hc (by decide)
  have hedge {left middle right : Char} (hleft : left ∈ marks) (hmiddle : middle ∈ marks)
      (hright : right ∈ marks) (widths : List ℕ) :
      c ∉ spaces (label + 1) ++ border left middle right widths := by
    rw [List.mem_append, not_or]
    exact ⟨not_mem_spaces hspace _, not_mem_border hc hleft hmiddle hright widths⟩
  refine List.forall_mem_cons.mpr ⟨not_mem_headerLine hc hcolumns label width, ?_⟩
  refine forall_mem_frame ?_ ?_ ?_ hrows
  all_goals exact hedge (by decide) (by decide) (by decide) _

theorem not_mem_tableRow {size : Text} (hsize : c ∉ size) {cells : List Text}
    (hcells : ∀ cell ∈ cells, c ∉ cell) (label : ℕ) : c ∉ tableRow label size cells := by
  have hspace : c ≠ ' ' := ne_of_mem_marks hc (by decide)
  unfold tableRow
  rw [List.mem_append, List.mem_cons, not_or, not_or]
  exact ⟨not_mem_padLeft hspace hsize label, hspace, not_mem_fence hc hcells⟩

end

theorem drawn_of_plain (hcolour : o.colour = false) (width : ℕ) (cell : Cell) :
    p.drawn o chalk width cell = center width (entry (p.markerShown o) cell) := by
  rw [drawn, hcolour]
  rfl

/-- **A drawing without colours holds nothing but its marks and its texts.** -/
theorem not_mem_previewLines {c : Char} (hc : c ∉ marks) (hcolour : o.colour = false)
    (hcolumns : ∀ size ∈ p.columnSizes, c ∉ size) (hrows : ∀ size ∈ p.rowSizes, c ∉ size)
    (hcells : ∀ cells ∈ p.layout.interior, ∀ cell ∈ cells, c ∉ entry (p.markerShown o) cell) :
    ∀ line ∈ p.previewLines o chalk, c ∉ line := by
  have hspace : c ≠ ' ' := ne_of_mem_marks hc (by decide)
  have hbox (hnamed : p.isPositional = false) : ∀ line ∈ p.box o chalk, c ∉ line := by
    have hsizes : p.rowSizes = p.layout.body.map Row.size := if_neg (shape_ne_rowOnly hnamed)
    rw [box_eq]
    refine not_mem_table hc hcolumns (List.forall_mem_map.mpr fun row hrow => ?_) _ _
    have hsize : row.size ∈ p.rowSizes := hsizes ▸ List.mem_map_of_mem hrow
    have hmem : row.cells ∈ p.layout.interior := by
      rw [Layout.interior_of_named hnamed]
      exact List.mem_map_of_mem hrow
    refine not_mem_tableRow hc (hrows _ hsize) (List.forall_mem_map.mpr fun cell hcell => ?_) _
    rw [drawn_of_plain hcolour]
    exact not_mem_center hspace (hcells _ hmem cell hcell) _
  unfold previewLines
  cases hshape : p.shape with
  | columnOnly => exact not_mem_columnStrip hc hcolumns
  | rowOnly => exact not_mem_stack hc hrows _
  | singleCell | grid => exact hbox (by rw [isPositional, hshape]; rfl)

section

variable (hread : Layout.read p.rules lines = .ok p.layout) (hlines : ∀ line ∈ lines, OneLine line)

include hread hlines

/-- The characters of a layout come from the lines that were read, and if it has an empty cell, so
do those of the marker. -/
theorem oneLine_of_read {row : Row} (hrow : row ∈ p.layout.rows) {cell : Cell} (hcell : cell ∈ row) :
    (∀ item ∈ cell, OneLine item) ∧ (cell = [] → OneLine p.rules.marker) := by
  obtain ⟨line, hline, token, htoken, hsheds⟩ := Layout.exists_token_of_read hread hrow hcell
  have hwrite : OneLine (Cell.write p.rules cell) := fun hc =>
    hlines line hline ((Token.front_of_mem_tokens htoken).2 _ (hsheds.mem hc))
  refine ⟨fun item hitem hc => hwrite ?_, ?_⟩
  · have hmem := mem_joinWith_of_mem p.rules.separator hitem hc
    rwa [Cell.write, if_neg (List.ne_nil_of_mem hmem)]
  · rintro rfl
    exact hwrite

theorem oneLine_columnSizes : ∀ size ∈ p.columnSizes, OneLine size := by
  unfold columnSizes
  split_ifs
  · exact fun size hsize => absurd hsize List.not_mem_nil
  · refine List.forall_mem_map.mpr fun cell hcell => ?_
    obtain ⟨hitems, -⟩ := oneLine_of_read hread hlines List.mem_cons_self hcell
    cases cell with
    | nil => exact List.not_mem_nil
    | cons size others => exact hitems size List.mem_cons_self

theorem oneLine_size {row : Row} (hrow : row ∈ p.layout.rows) : OneLine row.size := by
  rcases row with _ | ⟨_ | ⟨size, others⟩, cells⟩
  · exact List.not_mem_nil
  · exact List.not_mem_nil
  · exact (oneLine_of_read hread hlines hrow List.mem_cons_self).1 size List.mem_cons_self

theorem oneLine_rowSizes : ∀ size ∈ p.rowSizes, OneLine size := by
  unfold rowSizes
  split_ifs
  · exact List.forall_mem_map.mpr fun row hrow => oneLine_size hread hlines hrow
  · refine List.forall_mem_map.mpr fun row hrow => ?_
    exact oneLine_size hread hlines (List.mem_cons_of_mem p.layout.header hrow)

theorem oneLine_shown (hmarker : ∀ marker ∈ o.marker, OneLine marker) {cells : List Cell}
    (hcells : cells ∈ p.layout.interior) {cell : Cell} (hcell : cell ∈ cells) :
    OneLine (p.shown o cell) := by
  obtain ⟨row, hrow, rfl⟩ := Layout.exists_row_of_mem_interior hcells
  obtain ⟨hitems, hempty⟩ := oneLine_of_read hread hlines
    (List.mem_cons_of_mem p.layout.header hrow) (List.mem_of_mem_drop hcell)
  unfold shown markerShown
  split_ifs with hnil
  · cases hm : o.marker with
    | none => exact hempty hnil
    | some marker => exact hmarker marker hm
  · exact not_mem_joinWith (by decide) hitems

/-- **No line of a drawing is broken**, if no line that was read is, and no marker that is given. -/
theorem oneLine_previewLines (hcolour : o.colour = false)
    (hmarker : ∀ marker ∈ o.marker, OneLine marker) :
    ∀ line ∈ p.previewLines o chalk, OneLine line := by
  have hcolumns := oneLine_columnSizes hread hlines
  have hrows := oneLine_rowSizes hread hlines
  refine not_mem_previewLines (by decide) hcolour hcolumns hrows fun cells hcells cell hcell => ?_
  rw [entry_eq_shown (cell_of_read hread hcells hcell).1]
  exact oneLine_shown hread hlines hmarker hcells hcell

end

/-- **The lines of the drawing are those of its text.** -/
theorem splitOn_preview (h : ∀ line ∈ p.previewLines o chalk, OneLine line) :
    splitOn ['\n'] (p.preview o chalk) = p.previewLines o chalk := by
  refine splitOn_joinWith ?_ h
  unfold previewLines
  split <;> exact List.cons_ne_nil _ _

end Plan

end GridText
