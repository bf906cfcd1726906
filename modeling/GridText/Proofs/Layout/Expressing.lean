import GridText.Proofs.Layout.Writing

/-! # Writing a layout: which layouts can be written

A layout need not come from lines. `Expressible` says what is asked of one so that its lines are read
as this layout: sizes that are sizes, items that can be told apart in an entry, and the rules that
tie the cells of a row and the rows of a layout together. What is written for it are `Solid` tokens,
so nothing that stands beside them matters.

* `Cell.ofEntry_write`: the entry of a cell spells the cell.
* `Layout.Expressible.map_tokens_write`: the tokens of the lines that are written.
* `expressible_layouts_are_read_back`: every expressible layout is read from its lines. -/

namespace GridText

open Token (Solid tokens)

variable {rules : Rules} {d : Char}

/-! ### Cells -/

/-- A text that stands for itself in an entry: not empty, without blanks, without the beginning of a
call and without this separator. -/
def PlainItem (d : Char) (item : Text) : Prop :=
  item ≠ [] ∧ ∀ c ∈ item, isBlank c = false ∧ c ≠ '(' ∧ c ≠ d

instance (d : Char) (item : Text) : Decidable (PlainItem d item) :=
  have := List.decidableBAll (fun c => isBlank c = false ∧ c ≠ '(' ∧ c ≠ d) item
  instDecidableAnd

theorem PlainItem.ink {item : Text} (h : PlainItem d item) : Text.Ink item :=
  fun c hc => (h.2 c hc).1

theorem PlainItem.not_mem {item : Text} (h : PlainItem d item) : d ∉ item :=
  fun hd => (h.2 d hd).2.2 rfl

theorem PlainItem.isNameChar {item : Text} (h : PlainItem d item) :
    ∀ c ∈ item, Token.isNameChar c = true := fun c hc => by
  obtain ⟨hink, hopen, -⟩ := h.2 c hc
  simp [Token.isNameChar, isInk, hink, hopen]

/-- Rules whose separator is one character that is no blank and begins no call, and whose marker
could be an item. -/
structure Rules.Plain (rules : Rules) (d : Char) : Prop where
  separator : rules.separator = [d]
  ink : isBlank d = false
  not_open : d ≠ '('
  marker : PlainItem d rules.marker

namespace Cell

variable {cell : Cell}

theorem joinWith_ne_nil {parts : List Text} (hne : parts ≠ []) (h : ∀ part ∈ parts, part ≠ []) :
    Text.joinWith [d] parts ≠ [] := by
  obtain ⟨part, parts, rfl⟩ := List.exists_cons_of_ne_nil hne
  have hpart := h part List.mem_cons_self
  cases parts with
  | nil => rwa [Text.joinWith_singleton]
  | cons second parts => simp [Text.joinWith_cons_cons]

theorem write_of_ne_nil (hsep : rules.separator = [d]) (hne : cell ≠ [])
    (h : ∀ item ∈ cell, PlainItem d item) : write rules cell = Text.joinWith [d] cell := by
  unfold write
  rw [hsep]
  exact if_neg (joinWith_ne_nil hne fun item hitem => (h item hitem).1)

theorem parts_write (hrules : rules.Plain d) (h : ∀ item ∈ cell, PlainItem d item) :
    parts rules (write rules cell) = if cell = [] then [rules.marker] else cell := by
  have hparts (items : List Text) (hne : items ≠ []) (hitems : ∀ item ∈ items, PlainItem d item) :
      parts rules (Text.joinWith [d] items) = items := by
    rw [parts, hrules.separator, Text.splitOn_joinWith hne fun item hi => (hitems item hi).not_mem]
    exact (List.map_congr_left fun item hi => Text.trim_of_ink (hitems item hi).ink).trans
      (List.map_id items)
  split_ifs with hnil
  · subst hnil
    have := hparts [rules.marker] (by simp) (by simpa using hrules.marker)
    rwa [Text.joinWith_singleton] at this
  · rw [write_of_ne_nil hrules.separator hnil h, hparts cell hnil h]

/-- **The entry of a cell spells the cell**, if the cell is not the marker itself. -/
theorem ofEntry_write (hrules : rules.Plain d) (h : ∀ item ∈ cell, PlainItem d item)
    (hmarker : cell ≠ [rules.marker]) : ofEntry rules (write rules cell) = cell := by
  rw [ofEntry, parts_write hrules h, ofParts]
  by_cases hnil : cell = []
  · rw [if_pos hnil, if_pos rfl, hnil]
  · rw [if_neg hnil, if_neg hmarker]

theorem solid_write (hrules : rules.Plain d) (h : ∀ item ∈ cell, PlainItem d item) :
    Solid (write rules cell) := by
  by_cases hnil : cell = []
  · subst hnil
    exact .plain hrules.marker.1 hrules.marker.isNameChar
  rw [write_of_ne_nil hrules.separator hnil h]
  refine .plain (joinWith_ne_nil hnil fun item hitem => (h item hitem).1) fun c hc => ?_
  rcases Text.mem_joinWith hc with hc | ⟨item, hitem, hc⟩
  · obtain rfl := List.mem_singleton.mp hc
    simp [Token.isNameChar, isInk, hrules.ink, hrules.not_open]
  · exact (h item hitem).isNameChar c hc

end Cell

/-! ### Layouts -/

namespace Layout

/-- A cell that holds a track size and nothing else. -/
def IsSizeCell (cell : Cell) : Prop := ∃ size kind, cell = [size] ∧ Track.classify size = .ok kind

/-- **A layout that can be written** under rules with this separator. -/
structure Expressible (rules : Rules) (d : Char) (l : Layout) : Prop where
  /-- There is a column. -/
  nonempty : l.header ≠ []
  /-- The header holds sizes. -/
  header : ∀ cell ∈ l.header, IsSizeCell cell
  /-- Every later row begins with a size. -/
  sizes : ∀ row ∈ l.body, ∃ cell ∈ row.head?, IsSizeCell cell
  /-- All later rows have the same number of cells, which fits the header. -/
  width : ∃ n, (n = l.header.length + 1 ∨ l.header.length = 1 ∧ n = 1) ∧
    ∀ row ∈ l.body, row.length = n
  /-- The items can be told apart in an entry. -/
  items : ∀ row ∈ l.body, ∀ cell ∈ row.cells, ∀ item ∈ cell, PlainItem d item
  /-- The items of a cell are distinct. -/
  distinct : ∀ row ∈ l.body, ∀ cell ∈ row.cells, cell.Nodup
  /-- No cell reads like an empty one. -/
  unmarked : ∀ row ∈ l.body, ∀ cell ∈ row.cells, cell ≠ [rules.marker]
  /-- Every item of a row stands in one unbroken run of cells. -/
  unbroken : ∀ row ∈ l.body, Row.Unbroken row.cells
  /-- Any two later rows, one below the other, have the same spans for the values of both. -/
  agree : l.body.IsChain fun above below => ∀ item before span,
    above.spans.find? item = some before → below.spans.find? item = some span → before = span

theorem IsSizeCell.eq_write {cell : Cell} (h : IsSizeCell cell) (rules : Rules) :
    cell = [Cell.write rules cell] ∧ Track.Size (Cell.write rules cell) := by
  obtain ⟨size, kind, rfl, hkind⟩ := h
  have hsize := Track.size_of_classify hkind
  have hbegins := (hsize.solid.front Text.blank_nil.stops).begins
  rw [Cell.write_singleton hbegins]
  exact ⟨rfl, hsize⟩

namespace Expressible

variable {l : Layout}

theorem eq_cons (h : l.Expressible rules d) {row : Row} (hrow : row ∈ l.body) :
    ∃ cell, row = cell :: row.cells ∧ IsSizeCell cell := by
  obtain ⟨cell, hcell, hsize⟩ := h.sizes row hrow
  obtain ⟨cells, rfl⟩ := List.head?_eq_some_iff.mp hcell
  exact ⟨cell, rfl, hsize⟩

theorem solid (h : l.Expressible rules d) (hrules : rules.Plain d) :
    ∀ row ∈ l.rows, ∀ cell ∈ row, Solid (Cell.write rules cell) := by
  refine List.forall_mem_cons.mpr ⟨fun cell hcell => ?_, fun row hrow cell hcell => ?_⟩
  · exact ((h.header cell hcell).eq_write rules).2.solid
  · obtain ⟨first, he, hsize⟩ := h.eq_cons hrow
    rw [he] at hcell
    rcases List.mem_cons.mp hcell with rfl | hcell
    · exact (hsize.eq_write rules).2.solid
    · exact Cell.solid_write hrules (h.items row hrow cell hcell)

/-- **The tokens of the lines that are written** are the texts of the cells. -/
theorem map_tokens_write (h : l.Expressible rules d) (hrules : rules.Plain d) :
    (l.write rules).map tokens = l.rows.map (·.map (Cell.write rules)) := by
  have hlines : List.Forall₂ (fun row line => row.map (Cell.write rules) = tokens line) l.rows
      (l.write rules) := by
    refine ((List.forall₂_and_left l.rows (l.write rules)).mpr
      ⟨h.solid hrules, holds_write rules l⟩).imp ?_
    rintro row line ⟨hsolid, s, hspaced, hline⟩
    rw [hline, Token.tokens_of_solid hspaced (List.forall_mem_map.mpr hsolid)]
  rw [eq_comm, ← List.forall₂_eq_eq_eq, List.forall₂_map_left_iff, List.forall₂_map_right_iff]
  exact hlines

theorem ofTokens_row (h : l.Expressible rules d) (hrules : rules.Plain d) {row : Row}
    (hrow : row ∈ l.body) : Row.ofTokens rules (row.map (Cell.write rules)) = row := by
  obtain ⟨first, he, hsize⟩ := h.eq_cons hrow
  have hcells : (row.cells.map (Cell.write rules)).map (Cell.ofEntry rules) = row.cells := by
    rw [List.map_map]
    exact (List.map_congr_left fun cell hcell => Cell.ofEntry_write hrules
      (h.items row hrow cell hcell) (h.unmarked row hrow cell hcell)).trans (List.map_id _)
  rw [he, List.map_cons, Row.ofTokens, hcells, ← (hsize.eq_write rules).1]

theorem ofTokens_write (h : l.Expressible rules d) (hrules : rules.Plain d) :
    ofTokens rules ((l.write rules).map tokens) = l := by
  have hheader : (l.header.map (Cell.write rules)).map ([·]) = l.header := by
    rw [List.map_map]
    exact (List.map_congr_left fun cell hcell =>
      ((h.header cell hcell).eq_write rules).1.symm).trans (List.map_id _)
  have hbody : (l.body.map (·.map (Cell.write rules))).map (Row.ofTokens rules) = l.body := by
    rw [List.map_map]
    exact (List.map_congr_left fun row hrow => h.ofTokens_row hrules hrow).trans (List.map_id _)
  rw [h.map_tokens_write hrules, ofTokens, rows, List.map_cons, List.headD_cons, List.tail_cons,
    hheader, hbody]

theorem valid (h : l.Expressible rules d) (hrules : rules.Plain d) : l.Valid rules := by
  refine ⟨h.nonempty, fun cell hcell => ?_, fun row hrow => ?_, ?_, ?_⟩
  · obtain ⟨size, kind, rfl, hkind⟩ := h.header cell hcell
    exact ⟨size, Track.size_of_classify hkind, rfl⟩
  · obtain ⟨first, he, size, kind, rfl, hkind⟩ := h.eq_cons hrow
    have hsize : row.size = size := by rw [he]; rfl
    refine ⟨⟨by rw [hsize, ← he], h.unbroken row hrow⟩, ?_, fun _ => by simp [hrules.separator],
      h.distinct row hrow⟩
    exact hsize ▸ Track.size_of_classify hkind
  · obtain ⟨n, hn, hlength⟩ := h.width
    exact ⟨n, hn.imp_right fun hone => ⟨hone.1, Or.inl hone.2⟩, hlength⟩
  · refine h.agree.imp fun above below hagree => clash?_spans_eq_none_iff.mp ?_
    exact (clash?_eq_none_iff (Row.nodup_items_spans below)).mpr hagree

end Expressible

/-- **Every expressible layout is read from its lines.** -/
theorem expressible_layouts_are_read_back (hrules : rules.Plain d) {l : Layout}
    (h : l.Expressible rules d) : read rules (l.write rules) = .ok l :=
  read_eq_ok_iff_valid.mpr ⟨h.valid hrules, h.ofTokens_write hrules⟩

/-- Under a semicolon, items with a comma and with a closing bracket, above an empty cell and below a
size with blanks in it. -/
theorem brackets_and_commas_are_read_back :
    ∃ rules l, rules.Plain ';' ∧ l.Expressible rules ';' ∧
      l.write rules = ["                 minmax(1px,\t2fr)  1em".toList,
        "fit-content(5%)  b);c,             b)".toList, "50%              -                 d".toList] ∧
      read rules (l.write rules) = .ok l := by
  have hrules : Rules.Plain ⟨['-'], [';']⟩ ';' := ⟨rfl, by decide, by decide, by decide⟩
  have hl : Expressible ⟨['-'], [';']⟩ ';' ⟨[["minmax(1px,\t2fr)".toList], ["1em".toList]],
      [[["fit-content(5%)".toList], ["b)".toList, "c,".toList], ["b)".toList]],
        [["50%".toList], [], [['d']]]]⟩ := by
    refine ⟨by decide, ?_, ?_, ⟨3, Or.inl rfl, by decide⟩, by decide +kernel, by decide,
      by decide, ?_, ?_⟩
    · refine List.forall_mem_cons.mpr ⟨⟨_, .minmax, rfl, by decide +kernel⟩, ?_⟩
      exact List.forall_mem_singleton.mpr ⟨_, .em, rfl, by decide +kernel⟩
    · refine List.forall_mem_cons.mpr ⟨⟨_, rfl, _, .fitContent, rfl, by decide +kernel⟩, ?_⟩
      exact List.forall_mem_singleton.mpr ⟨_, rfl, _, .percent, rfl, by decide +kernel⟩
    · have hrun (first second : Cell) (h : ∀ item ∈ second, Row.resumes [first] item = false) :
          Row.Unbroken [first, second] :=
        Row.unbroken_concat.mpr ⟨Row.unbroken_concat.mpr ⟨Row.unbroken_nil, by simp [Row.resumes]⟩, h⟩
      refine List.forall_mem_cons.mpr ⟨hrun _ _ (by decide), ?_⟩
      exact List.forall_mem_singleton.mpr (hrun _ _ (by decide))
    · refine List.isChain_pair.mpr ?_
      exact (clash?_eq_none_iff (Row.nodup_items_spans _)).mp (by decide +kernel)
  exact ⟨_, _, hrules, hl, by decide +kernel, expressible_layouts_are_read_back hrules hl⟩

end Layout

end GridText
