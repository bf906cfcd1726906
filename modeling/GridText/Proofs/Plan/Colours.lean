import GridText.Proofs.Plan.Preview
import GridText.Proofs.Text.Codes
import GridText.Proofs.Track.Grammar

/-! # The preview: colours

A drawing in colours has codes around the texts of some cells, and is otherwise the drawing without
colours. An item may hold codes, or parts of one next to the codes that the drawing adds. What is
around a cell separates the two: no code goes on over a rule or a space. All that is asked of the
chalk is that it is `Chalk.Lawful`.

* `plain_preview_congr`: without codes the drawing does not depend on whether it has colours.
* `Tinted`: the lines of a table beside those of the same table in colours.
* `colours_only_add_codes`: what colours do to the drawing of any lines that were read. -/

namespace GridText

open Text (escape plain IsCode isCodeChar)

variable {p : Plan} {o : Preview.Options} {chalk : Chalk} {rules : Rules} {lines : List Text}

/-! ### Sizes -/

namespace Track

theorem ne_escape_of_isDecimalDigit {c : Char} (h : isDecimalDigit c = true) : c ≠ escape := by
  obtain ⟨z, hz, hle, -⟩ := zero_of_isDecimalDigit h
  have hzero := (digitZeros_apart z hz).1
  rintro rfl
  have hescape : escape.toNat = 0x1b := rfl
  omega

theorem Measure.escape_not_mem {unit : Kind} {s : Text} (h : Measure unit s) : escape ∉ s := by
  obtain ⟨digits, -, hdigits, rfl⟩ := h
  have hunit : escape ∉ unit.name.toList := by cases unit <;> decide
  rw [List.mem_append, not_or]
  exact ⟨fun hmem => ne_escape_of_isDecimalDigit (hdigits _ hmem) rfl, hunit⟩

theorem Simple.escape_not_mem {s : Text} (h : Simple s) : escape ∉ s := by
  rcases h with ⟨-, h⟩ | @⟨word, -⟩
  · exact h.escape_not_mem
  · cases word <;> decide

theorem Size.escape_not_mem {s : Text} (h : Size s) : escape ∉ s := by
  cases h with
  | simple h => exact h.escape_not_mem
  | @minmax first gap second hfirst _ hgap hsecond =>
    have hstart : escape ∉ "minmax(".toList := by decide
    have hblank : escape ∉ gap := fun hmem => absurd (hgap _ hmem) (by decide)
    have hmarks : escape ∉ [','] ∧ escape ∉ [')'] := by decide
    unfold minmaxText
    generalize "minmax(".toList = start at hstart ⊢
    simp only [List.mem_append, not_or]
    exact ⟨⟨⟨hstart, hfirst.escape_not_mem, hmarks.1⟩, hblank⟩, hsecond.escape_not_mem, hmarks.2⟩
  | @fitContent argument h =>
    have hstart : escape ∉ "fit-content(".toList := by decide
    have hmark : escape ∉ [')'] := by decide
    unfold fitContentText
    generalize "fit-content(".toList = start at hstart ⊢
    simp only [List.mem_append, not_or]
    exact ⟨hstart, h.simple.escape_not_mem, hmark⟩

end Track

/-! ### Chalks -/

namespace Chalk

variable {colour : Text → Text} {parameters : Text}

theorem Writes.plain_eq (h : Writes colour parameters) (s : Text) : plain (colour s) = plain s := by
  rw [h.eq_coded, Text.plain_coded h.isParameter]

/-- **The chalk of a terminal writes codes.** -/
theorem lawful_terminal : terminal.Lawful := by
  obtain ⟨codes, hcodes, hpalette⟩ : ∃ codes : List Text,
      codes.all (·.all Text.isParameter) = true ∧ terminal.palette = codes.map Text.coded :=
    ⟨["31", "32", "33", "34", "35", "36", "91", "92", "93", "94"].map String.toList, by decide, rfl⟩
  rw [Lawful, hpalette]
  refine List.forall_mem_map.mpr fun parameters h => ⟨parameters, ?_, fun _ => rfl⟩
  exact List.all_eq_true.mp (List.all_eq_true.mp hcodes parameters h)

end Chalk

/-! ### Codes around a text -/

namespace Preview

/-- The options, with a colour for every item. -/
def Options.inColours (o : Options) : Options := { o with colour := true }

/-- The options, with no colours. -/
def Options.inBlack (o : Options) : Options := { o with colour := false }

theorem mem_of_colour?_eq_some {palette : List (Text → Text)} {items : List Text} {cell : Cell}
    {colour : Text → Text} (h : colour? palette items cell = some colour) : colour ∈ palette := by
  obtain ⟨item, -, hitem⟩ := Option.bind_eq_some_iff.mp h
  exact List.mem_of_getElem? hitem

theorem plain_drawCell {colour : Option (Text → Text)}
    (h : ∀ f ∈ colour, ∀ s, plain (f s) = plain s) (width : ℕ) (marker : Text) (cell : Cell) :
    plain (drawCell width marker colour cell) =
      plain (Text.center width (entry marker cell)) := by
  cases colour with
  | none => rfl
  | some f => exact h f rfl _

/-- **Codes do not go over the rules** between the cells of a line. -/
theorem plain_fence (cells : List Text) : plain (fence cells) = fence (cells.map plain) := by
  have hrule : isCodeChar '│' = false := by decide
  have hne : '│' ≠ escape := by decide
  rw [fence, List.cons_append, Text.plain_cons_of_ne hne, Text.plain_append_cons hrule hne,
    Text.plain_nil, Text.plain_joinWith hrule hne, fence, List.cons_append]

theorem map_intersperse {α β : Type} (f : α → β) (middle : α) (l : List α) :
    (l.intersperse middle).map f = (l.map f).intersperse (f middle) := by
  induction l with
  | nil => rfl
  | cons a l ih =>
    cases l with
    | nil => rfl
    | cons b l => simpa using ih

theorem map_frame (f : Text → Text) (top middle bottom : Text) (rows : List Text) :
    (frame top middle bottom rows).map f =
      frame (f top) (f middle) (f bottom) (rows.map f) := by
  unfold frame
  rw [List.map_append, List.map_cons, map_intersperse, List.map_singleton]

theorem getElem?_frame_congr {top middle bottom : Text} {rows rows' : List Text} (hne : rows ≠ [])
    (h : rows'.length = rows.length) {n : ℕ} (hn : ∀ r < rows.length, n ≠ 2 * r + 1) :
    (frame top middle bottom rows')[n]? = (frame top middle bottom rows)[n]? := by
  have hne' : rows' ≠ [] := by
    rwa [← List.length_pos_iff, h, List.length_pos_iff]
  have hend {rows : List Text} (hrows : rows ≠ []) (hn : 2 * rows.length < n) :
      (frame top middle bottom rows)[n]? = none := by
    rw [List.getElem?_eq_none_iff, length_frame hrows]
    omega
  rcases Nat.lt_or_ge (2 * rows.length) n with hlong | hshort
  · rw [hend hne hlong, hend hne' (by omega)]
  obtain ⟨r, hr⟩ : ∃ r, n = 2 * r := by
    rcases Nat.mod_two_eq_zero_or_one n with heven | hodd
    · exact ⟨n / 2, by omega⟩
    · exact absurd (hn (n / 2) (by omega)) (by omega)
  subst hr
  rcases Nat.lt_or_eq_of_le (show r ≤ rows.length by omega) with hlt | rfl
  · cases r with
    | zero => rfl
    | succ r => rw [getElem?_frame_middle hlt, getElem?_frame_middle (h ▸ hlt)]
  · rw [getElem?_frame_bottom hne, ← h, getElem?_frame_bottom hne']

end Preview

namespace Plan

open Preview

theorem plain_tableRow (label : ℕ) (size : Text) (cells : List Text) :
    plain (tableRow label size cells) =
      plain (Text.padLeft label size) ++ ' ' :: fence (cells.map plain) := by
  rw [tableRow, Text.plain_append_cons (by decide) (by decide), plain_fence]

section

variable (hchalk : chalk.Lawful)

include hchalk

theorem plain_drawn (p : Plan) (o : Options) (width : ℕ) (cell : Cell) :
    plain (p.drawn o chalk width cell) =
      plain (Text.center width (entry (p.markerShown o) cell)) := by
  refine plain_drawCell (fun f hf => ?_) width _ cell
  split_ifs at hf
  · obtain ⟨parameters, hwrites⟩ := hchalk f (mem_of_colour?_eq_some hf)
    exact hwrites.plain_eq
  · cases hf

theorem map_plain_tableRows (p : Plan) (o : Options) (label width : ℕ) :
    (p.tableRows o.inColours chalk label width).map plain =
      (p.tableRows o.inBlack chalk label width).map plain := by
  have hcells (cells : List Cell) : (cells.map (p.drawn o.inColours chalk width)).map plain =
      (cells.map (p.drawn o.inBlack chalk width)).map plain := by
    rw [List.map_map, List.map_map]
    refine List.map_congr_left fun cell _ => ?_
    rw [Function.comp_apply, Function.comp_apply, plain_drawn hchalk, plain_drawn hchalk]
    rfl
  unfold tableRows
  rw [List.map_map, List.map_map]
  refine List.map_congr_left fun row _ => ?_
  simp only [Function.comp_apply, plain_tableRow, hcells]

theorem map_plain_previewLines (p : Plan) (o : Options) :
    (p.previewLines o.inColours chalk).map plain =
      (p.previewLines o.inBlack chalk).map plain := by
  have hbox : (p.box o.inColours chalk).map plain = (p.box o.inBlack chalk).map plain := by
    rw [box_eq, box_eq, table, table, List.map_cons, List.map_cons, map_frame, map_frame,
      map_plain_tableRows hchalk]
    rfl
  unfold previewLines
  split
  · rfl
  · rfl
  · exact hbox
  · exact hbox

/-- **Without its codes a drawing does not depend on colours.** -/
theorem plain_preview_congr (p : Plan) (o : Options) :
    plain (p.preview o.inColours chalk) = plain (p.preview o.inBlack chalk) := by
  have hd : isCodeChar '\n' = false := by decide
  have hne : '\n' ≠ escape := by decide
  rw [preview, preview, Text.plain_joinWith hd hne, Text.plain_joinWith hd hne,
    map_plain_previewLines hchalk]

end

/-! ### Drawings without the escape character -/

theorem escape_not_mem_preview (hread : Layout.read p.rules lines = .ok p.layout)
    (hitems : ∀ cells ∈ p.layout.interior, ∀ cell ∈ cells, ∀ item ∈ cell, escape ∉ item)
    (hmarker : escape ∉ p.markerShown o) (hcolour : o.colour = false) :
    escape ∉ p.preview o chalk := by
  have hvalid := (Layout.read_eq_ok_iff_valid.mp hread).1
  have hcolumns : ∀ size ∈ p.columnSizes, escape ∉ size := fun size hsize =>
    (size_of_mem_columnSizes hvalid size hsize).escape_not_mem
  have hrows : ∀ size ∈ p.rowSizes, escape ∉ size := fun size hsize =>
    (size_of_mem_rowSizes hvalid size hsize).escape_not_mem
  refine Text.not_mem_joinWith (by decide) ?_
  refine not_mem_previewLines (by decide) hcolour hcolumns hrows fun cells hcells cell hcell => ?_
  have hcell : escape ∉ Text.joinWith [','] cell :=
    Text.not_mem_joinWith (by decide) (hitems cells hcells cell hcell)
  by_cases hnil : Text.joinWith [','] cell = []
  · rwa [entry, if_pos hnil]
  · rwa [entry, if_neg hnil]

/-! ### Tables in colours -/

/-- The colour of an item: the entry of the palette at the rank of the item, counted round. -/
def itemColour (p : Plan) (chalk : Chalk) (item : Text) : Text → Text :=
  (chalk.palette[p.orderedItems.idxOf item % chalk.palette.length]?).getD id

/-- The text of a cell between the code of its first item and the code that resets it; that of an
empty cell has no codes. -/
def tint (parameters : Text → Text) (text : Cell → Text) : Cell → Text
  | [] => text []
  | item :: others =>
    '\x1b' :: '[' :: parameters item ++ 'm' :: text (item :: others) ++ ['\x1b', '[', '0', 'm']

/-- **The lines of a table, without colours and in colours.** -/
structure Tinted (p : Plan) (o : Options) (parameters : Text → Text)
    (black coloured : List Text) : Prop where
  /-- The lines of the two tables are as many. -/
  height : black.length = 2 * p.rowSizes.length + 2 ∧ coloured.length = black.length
  /-- The header and the borders are the same. -/
  other : ∀ n, (∀ r < p.rowSizes.length, n ≠ 2 * r + 2) → coloured[n]? = black[n]?
  /-- On the line of a row, what stands in front of the cells is the same, and so are the rules and
  the texts of the empty cells. The texts of the other cells are between the codes of their first
  items. -/
  row : ∀ r < p.rowSizes.length, ∃ cells front, p.layout.interior[r]? = some cells ∧
    black[2 * r + 2]? = some (front ++ fence (cells.map fun cell =>
      Text.center (p.cellWidth o).toNat (p.shown o cell))) ∧
    coloured[2 * r + 2]? = some (front ++ fence (cells.map (tint parameters fun cell =>
      Text.center (p.cellWidth o).toNat (p.shown o cell))))

theorem palette_itemColour (p : Plan) (chalk : Chalk) (item : Text) :
    chalk.palette[p.orderedItems.idxOf item % 10]? = some (p.itemColour chalk item) := by
  have hlt : p.orderedItems.idxOf item % chalk.palette.length < chalk.palette.length :=
    Nat.mod_lt _ (List.length_pos_iff.mpr (List.cons_ne_nil _ _))
  have hcolour := List.getElem?_eq_getElem hlt
  rw [itemColour, hcolour, Option.getD_some]
  exact hcolour

theorem drawn_inColours {parameters : Text → Text}
    (hwrites : ∀ item, Chalk.Writes (p.itemColour chalk item) (parameters item)) (width : ℕ)
    (cell : Cell) : p.drawn o.inColours chalk width cell =
      tint parameters (p.drawn o.inBlack chalk width) cell := by
  cases cell with
  | nil => rfl
  | cons item others =>
    have hcolour : colour? chalk.palette p.orderedItems (item :: others) =
        some (p.itemColour chalk item) := p.palette_itemColour chalk item
    have hdrawn : p.drawn o.inColours chalk width (item :: others) =
        drawCell width (p.markerShown o) (colour? chalk.palette p.orderedItems (item :: others))
          (item :: others) := rfl
    rw [hdrawn, hcolour]
    exact (hwrites item).eq_coded _

theorem tint_congr {parameters : Text → Text} {text text' : Cell → Text} {cell : Cell}
    (h : text cell = text' cell) : tint parameters text cell = tint parameters text' cell := by
  cases cell with
  | nil => exact h
  | cons item others => rw [tint, tint, h]

theorem tableRow_eq (label : ℕ) (size : Text) (cells : List Text) :
    tableRow label size cells = (Text.padLeft label size ++ [' ']) ++ fence cells := by
  rw [tableRow, List.append_assoc]
  rfl

section

variable (hread : Layout.read p.rules lines = .ok p.layout) (hnamed : p.isPositional = false)
  {parameters : Text → Text}
  (hwrites : ∀ item, Chalk.Writes (p.itemColour chalk item) (parameters item))

include hread hnamed hwrites

theorem map_drawn {row : Row} (hrow : row ∈ p.layout.body) (o : Options) (width : ℕ) :
    (row.cells.map (p.drawn o.inBlack chalk width) =
      row.cells.map fun cell => Text.center width (p.shown o cell)) ∧
    (row.cells.map (p.drawn o.inColours chalk width) =
      row.cells.map (tint parameters fun cell => Text.center width (p.shown o cell))) := by
  have hcells : row.cells ∈ p.layout.interior := by
    rw [Layout.interior_of_named hnamed]
    exact List.mem_map_of_mem hrow
  have hblack : ∀ cell ∈ row.cells,
      p.drawn o.inBlack chalk width cell = Text.center width (p.shown o cell) := by
    intro cell hcell
    have hne := (cell_of_read hread hcells hcell).1
    rw [drawn_of_plain rfl]
    exact congrArg (Text.center width) (entry_eq_shown hne)
  refine ⟨List.map_congr_left hblack, List.map_congr_left fun cell hcell => ?_⟩
  rw [drawn_inColours hwrites]
  exact tint_congr (hblack cell hcell)

/-- **A table in colours is tinted**, whatever the width of its cells. -/
theorem tinted_table (o : Options) : p.Tinted o parameters (p.previewLines o.inBlack chalk)
    (p.previewLines o.inColours chalk) := by
  have hlen := length_tableRows hnamed
  have hne := tableRows_ne_nil hnamed
  have hwidth : p.cellWidth o.inBlack = p.cellWidth o ∧ p.cellWidth o.inColours = p.cellWidth o :=
    ⟨rfl, rfl⟩
  rw [previewLines_of_named hnamed, previewLines_of_named hnamed, box_eq, box_eq, hwidth.1,
    hwidth.2]
  generalize longest p.rowSizes = label
  refine ⟨⟨?black, ?coloured⟩, ?other, ?row⟩
  case black => rw [table, List.length_cons, length_frame (hne _ _ _ _), hlen]
  case coloured =>
    unfold table
    rw [List.length_cons, List.length_cons, length_frame (hne _ _ _ _), length_frame (hne _ _ _ _),
      hlen, hlen]
  case other =>
    intro n hn
    cases n with
    | zero => rfl
    | succ n =>
      unfold table
      rw [List.getElem?_cons_succ, List.getElem?_cons_succ]
      refine getElem?_frame_congr (hne _ _ _ _) (by rw [hlen, hlen]) fun r hr hodd => ?_
      rw [hlen] at hr
      exact hn r hr (by omega)
  case row =>
    intro r hr
    have hbody : r < p.layout.body.length := by
      rwa [rowSizes_of_named hnamed, List.length_map] at hr
    obtain ⟨hblack, hcoloured⟩ :=
      map_drawn hread hnamed hwrites (List.getElem_mem hbody) o (p.cellWidth o).toNat
    refine ⟨_, Text.padLeft label p.layout.body[r].size ++ [' '], getElem?_interior hnamed hbody,
      ?_, ?_⟩
    · rw [getElem?_table_row hbody, tableRow_eq, hblack]
    · rw [getElem?_table_row hbody, tableRow_eq, hcoloured]

end

/-! ### Any lines -/

/-- **What colours do to a drawing.** -/
structure Coloured (p : Plan) (o : Options) (chalk : Chalk) : Prop where
  /-- Without its codes the drawing in colours is the drawing in black without its codes. -/
  plain_eq : plain (p.preview o.inColours chalk) = plain (p.preview o.inBlack chalk)
  /-- This is the drawing in black itself where no item and no marker has the escape character. -/
  plain_eq_preview : (∀ cells ∈ p.layout.interior, ∀ cell ∈ cells, ∀ item ∈ cell, escape ∉ item) →
    escape ∉ p.markerShown o → plain (p.preview o.inColours chalk) = p.preview o.inBlack chalk
  /-- A strip has no colours. -/
  positional : p.isPositional = true → p.preview o.inColours chalk = p.preview o.inBlack chalk
  /-- The items of a table are ranked in the order of their code points, and an item has the
  parameters of the code that is written by the entry of the palette at its rank, counted round.
  The lines of the table differ in nothing else than these codes. -/
  named : p.isPositional = false → ∃ (ranked : List Text) (parameters : Text → Text)
    (black coloured : List Text),
    (∀ item, item ∈ ranked ↔ ∃ cells ∈ p.layout.interior, ∃ cell ∈ cells, item ∈ cell) ∧
    (ranked.Pairwise fun s t => List.Lex (· < ·) (s.map Char.toNat) (t.map Char.toNat)) ∧
    (∀ rank item, ranked[rank]? = some item →
      ∃ colour, chalk.palette[rank % 10]? = some colour ∧ Chalk.Writes colour (parameters item)) ∧
    p.preview o.inBlack chalk = Text.joinWith ['\n'] black ∧
    p.preview o.inColours chalk = Text.joinWith ['\n'] coloured ∧
    p.Tinted o parameters black coloured

/-- **Colours only add codes.** What was read of any lines is drawn with colours and without, of
whatever width the cells are to be and whatever marks an empty cell. The two drawings are the same
but for the codes around the cells of a table that are not empty. -/
theorem colours_only_add_codes (hchalk : chalk.Lawful) (h : ofRows rules lines = .ok p)
    (o : Options) : p.preview? o.inColours chalk = some (p.preview o.inColours chalk) ∧
      p.preview? o.inBlack chalk = some (p.preview o.inBlack chalk) ∧ p.Coloured o chalk := by
  obtain ⟨-, hread⟩ := read_of_ofRows h
  have hvalid := (Layout.read_eq_ok_iff_valid.mp hread).1
  have hdrawn (o' : Options) : p.preview? o' chalk = some (p.preview o' chalk) := by
    rw [preview?, previewLines?_eq_some hvalid]
    rfl
  refine ⟨hdrawn _, hdrawn _, plain_preview_congr hchalk p o, fun hitems hmarker => ?_,
    fun hpositional => ?_, fun hnamed => ?_⟩
  · rw [plain_preview_congr hchalk]
    exact Text.plain_of_not_mem (escape_not_mem_preview hread hitems hmarker rfl)
  · have hlines : p.previewLines o.inColours chalk = p.previewLines o.inBlack chalk := by
      unfold isPositional at hpositional
      unfold previewLines
      cases hshape : p.shape with
      | columnOnly | rowOnly => rfl
      | singleCell | grid =>
        rw [hshape] at hpositional
        cases hpositional
    rw [preview, preview, hlines]
  · have hexists (item : Text) : ∃ parameters, Chalk.Writes (p.itemColour chalk item) parameters :=
      hchalk _ (List.mem_of_getElem? (p.palette_itemColour chalk item))
    choose parameters hwrites using hexists
    refine ⟨p.orderedItems, parameters, _, _, fun item => mem_orderedItems_iff,
      p.sorted_orderedItems, fun rank item hrank => ⟨p.itemColour chalk item, ?_, hwrites item⟩,
      rfl, rfl, tinted_table hread hnamed hwrites o⟩
    obtain ⟨hlt, rfl⟩ := List.getElem?_eq_some_iff.mp hrank
    rw [← palette_itemColour, p.nodup_orderedItems.idxOf_getElem rank hlt]

/-- Without their codes the two tables below are the same text. The item of the first cell is the
beginning of a code, and the code that resets its colour does not complete it; the cells have no
room for spaces. -/
theorem item_with_the_beginning_of_a_code : Chalk.terminal.Lawful ∧ ∃ p,
    ofRows {} ["1fr 1fr 1fr".toList, "1em \x1b[3 A,B ..".toList] = .ok p ∧
    p.isPositional = false ∧ p.Coloured ⟨some (-1), none, false⟩ .terminal ∧
    plain (Text.joinWith ['\n'] (["     1fr 1fr 1fr", "    ┌┬┬┐",
        "1em │\x1b[31m\x1b[3\x1b[0m│\x1b[32mA,B\x1b[0m│..│", "    └┴┴┘"].map String.toList)) =
      plain (Text.joinWith ['\n'] (["     1fr 1fr 1fr", "    ┌┬┬┐",
        "1em │\x1b[3│A,B│..│", "    └┴┴┘"].map String.toList)) := by
  obtain ⟨p, hp⟩ : ∃ p, p = Plan.mk ⟨[["1fr".toList], ["1fr".toList], ["1fr".toList]],
      [[["1em".toList], ["\x1b[3".toList], [['A'], ['B']], []]]⟩ {} := ⟨_, rfl⟩
  have hread : ofRows {} ["1fr 1fr 1fr".toList, "1em \x1b[3 A,B ..".toList] = .ok p := by
    rw [hp]
    decide +kernel
  have hnamed : p.isPositional = false := by
    rw [hp]
    decide
  have hitems : p.orderedItems = ["\x1b[3".toList, ['A'], ['B']] := by
    have hfound : p.areas.items = ["\x1b[3".toList, ['A'], ['B']] := by
      rw [hp]
      decide +kernel
    rw [orderedItems, hfound]
    exact List.mergeSort_of_pairwise (by decide)
  obtain ⟨-, -, hcoloured⟩ :=
    colours_only_add_codes Chalk.lawful_terminal hread ⟨some (-1), none, false⟩
  have hblack : p.preview ⟨some (-1), none, false⟩ = Text.joinWith ['\n'] (["     1fr 1fr 1fr",
      "    ┌┬┬┐", "1em │\x1b[3│A,B│..│", "    └┴┴┘"].map String.toList) := by
    rw [hp]
    decide +kernel
  have htinted : p.preview ⟨some (-1), none, true⟩ = Text.joinWith ['\n'] (["     1fr 1fr 1fr",
      "    ┌┬┬┐", "1em │\x1b[31m\x1b[3\x1b[0m│\x1b[32mA,B\x1b[0m│..│",
      "    └┴┴┘"].map String.toList) := by
    rw [preview, previewLines_of_named hnamed, box_eq, tableRows]
    unfold drawn
    rw [hitems, hp]
    decide +kernel
  refine ⟨Chalk.lawful_terminal, p, hread, hnamed, hcoloured, ?_⟩
  rw [← hblack, ← htinted]
  exact hcoloured.plain_eq

end Plan

end GridText
