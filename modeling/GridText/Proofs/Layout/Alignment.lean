import GridText.Layout.Area
import GridText.Proofs.Layout.Language
import GridText.Proofs.Row.Alignment

/-! # Alignment: layouts that differ in their blanks

Rows are compared by the spans of their values, and the values of a row are its items and its size.
Items have no blanks under a comma. A size with blanks is none of them, so its span is the first cell
of its row; it agrees with any row, whatever its blanks are (`clash?_of_alike`). So lines with the
same runs are read as layouts that are alike, or refused alike (`read_of_runs`). -/

namespace GridText

open Text (Ink runs)

variable {rules : Rules}

/-! ### The spans of rows that are alike -/

namespace Row

variable {row row' : Row} {item size : Text} {cells : List Cell}

/-- **A size that is no item** has a span of its own in front of those of the items. -/
theorem spans_cons (h : size ∉ cells.flatten) :
    spans ([size] :: cells) = (size, ⟨0, 0⟩) :: ItemMap.collect Span.widen
      ((cells.zipIdx 1).flatMap fun (cell, position) => cell.map (·, position)) := by
  have hother : ∀ mention ∈ (cells.zipIdx 1).flatMap fun (cell, position) =>
      cell.map (·, position), size ≠ mention.1 := by
    rintro ⟨item, position⟩ hmention rfl
    obtain ⟨⟨cell, p⟩, hcell, hmention⟩ := List.mem_flatMap.mp hmention
    obtain ⟨item', hitem, he⟩ := List.mem_map.mp hmention
    obtain rfl := congrArg Prod.fst he
    exact h (List.mem_flatten.mpr ⟨cell, List.fst_mem_of_mem_zipIdx hcell, hitem⟩)
  exact ItemMap.foldl_alter_cons Span.widen hother []

theorem not_mem_of_not_ink (hcells : ∀ item ∈ cells.flatten, Ink item) (h : ¬ Ink item) :
    item ∉ cells.flatten := fun hitem => h (hcells item hitem)

/-- A value with blanks is a size, which stands in front of all items. -/
theorem Alike.span_of_not_ink (h : Alike row row') (hitem : ¬ Ink item) {span : Span}
    (hspan : row.spans.find? item = some span) : span = ⟨0, 0⟩ := by
  cases h with
  | @intro size size' cells _ hcells =>
    obtain ⟨left, right, rfl, hs⟩ := find?_spans_eq_some_iff.mp hspan
    have hzero : ∀ p, At ([size] :: cells) item p → p = 0 := fun p hp => by
      cases p with
      | zero => rfl
      | succ p =>
        have hmem := exists_at_iff.mp ⟨p, at_cons_succ.mp hp⟩
        exact absurd hmem (not_mem_of_not_ink hcells hitem)
    rw [hzero left hs.at_left, hzero right hs.at_right]
    rfl

/-- The sizes are equal, or both have blanks. -/
theorem Alike.eq_or_not_ink (h : Alike row row') : row = row' ∨
    ∃ size size' cells, row = [size] :: cells ∧ row' = [size'] :: cells ∧ ¬ Ink size ∧ ¬ Ink size' ∧
      ∀ item ∈ cells.flatten, Ink item := by
  cases h with
  | @intro size size' cells hsize hcells =>
    by_cases hink : Ink size
    · rw [hsize.alike.eq_of_ink hink]
      exact Or.inl rfl
    · refine Or.inr ⟨size, size', cells, rfl, rfl, hink, fun hink' => hink ?_, hcells⟩
      exact hsize.alike.symm.eq_of_ink hink' ▸ hink'

/-- An item has the same span in both rows. -/
theorem Alike.find?_spans_of_ink (h : Alike row row') (hitem : Ink item) :
    row.spans.find? item = row'.spans.find? item := by
  rcases h.eq_or_not_ink with rfl | ⟨size, size', cells, rfl, rfl, hsize, hsize', hcells⟩
  · rfl
  · have hne : ∀ s : Text, ¬ Ink s → s ≠ item := fun s hs he => hs (he ▸ hitem)
    rw [spans_cons (not_mem_of_not_ink hcells hsize), spans_cons (not_mem_of_not_ink hcells hsize'),
      ItemMap.find?_cons, ItemMap.find?_cons, if_neg (hne size hsize), if_neg (hne size' hsize')]

end Row

namespace Layout

variable {above above' below below' : Row}

/-! ### Clashes -/

theorem clash?_cons (previous : ItemMap Span) (entry : Text × Span) (current : ItemMap Span) :
    clash? previous (entry :: current) =
      (clash? previous [entry]).or (clash? previous current) := by
  unfold clash?
  rw [List.findSome?_cons, List.findSome?_cons, List.findSome?_nil]
  split <;> simp_all

theorem clash?_singleton_eq_none {previous : ItemMap Span} {item : Text} {span : Span}
    (h : ∀ before, previous.find? item = some before → before = span) :
    clash? previous [(item, span)] = none := by
  unfold clash?
  rw [List.findSome?_eq_none_iff, List.forall_mem_singleton, Option.bind_eq_none_iff]
  exact fun before hbefore => if_pos (h before hbefore)

theorem clash?_congr {previous previous' current : ItemMap Span}
    (h : ∀ entry ∈ current, clash? previous [entry] = clash? previous' [entry]) :
    clash? previous current = clash? previous' current := by
  induction current with
  | nil => rfl
  | cons entry current ih =>
    obtain ⟨hentry, hrest⟩ := List.forall_mem_cons.mp h
    rw [clash?_cons, clash?_cons previous', hentry, ih hrest]

/-- **Rows that are alike clash alike.** -/
theorem clash?_of_alike (ha : above.Alike above') (hb : below.Alike below') :
    clash? above.spans below.spans = clash? above'.spans below'.spans := by
  have hzero : ∀ {row row' : Row}, row.Alike row' → ∀ {item : Text}, ¬ Ink item →
      clash? row.spans [(item, ⟨0, 0⟩)] = none := fun h _ hitem =>
    clash?_singleton_eq_none fun before hbefore => h.span_of_not_ink hitem hbefore
  have habove : clash? above.spans below.spans = clash? above'.spans below.spans := by
    refine clash?_congr ?_
    rintro ⟨item, span⟩ hentry
    by_cases hitem : Ink item
    · simp only [clash?, List.findSome?_cons, List.findSome?_nil, ha.find?_spans_of_ink hitem]
    · have hfind := (ItemMap.mem_iff_find? (Row.nodup_items_spans below)).mp hentry
      rw [hb.span_of_not_ink hitem hfind, hzero ha hitem, hzero ha.symm hitem]
  rw [habove]
  rcases hb.eq_or_not_ink with rfl | ⟨size, size', cells, rfl, rfl, hsize, hsize', hcells⟩
  · rfl
  · rw [Row.spans_cons (Row.not_mem_of_not_ink hcells hsize),
      Row.spans_cons (Row.not_mem_of_not_ink hcells hsize'), clash?_cons, hzero ha.symm hsize,
      clash?_cons _ (size', _), hzero ha.symm hsize']

/-! ### Reading -/

/-- Two cells that hold a size alone, and the sizes are alike. -/
def SizeCellAlike (cell cell' : Cell) : Prop :=
  ∃ size size', Track.SizeAlike size size' ∧ cell = [size] ∧ cell' = [size']

/-- **Two layouts with the same item cells** below and behind sizes that differ in their gaps. -/
structure Alike (l l' : Layout) : Prop where
  header : List.Forall₂ SizeCellAlike l.header l'.header
  body : List.Forall₂ Row.Alike l.body l'.body

theorem headerOfTokens_of_aligned {found found' : List Text}
    (h : List.Forall₂ Token.Aligned found found') :
    Except.Related Defect.Alike (List.Forall₂ SizeCellAlike) (headerOfTokens found)
      (headerOfTokens found') := by
  induction h with
  | nil => exact .ok .nil
  | @cons size size' _ _ hsize _ ih =>
    refine (Track.classify_of_alike hsize.alike).bind ?_
    rintro _ _ - - ⟨hs, hs'⟩
    refine ih.bind fun others others' _ _ hothers => ?_
    exact .ok (.cons ⟨size, size', ⟨hsize.alike, hs, hs'⟩, rfl, rfl⟩ hothers)

theorem readHeader_of_runs {line line' : Text} (h : runs line = runs line') :
    Except.Related Defect.Alike (List.Forall₂ SizeCellAlike) (readHeader line)
      (readHeader line') :=
  (Token.scan_of_runs h).bind fun _ _ _ _ hfound => headerOfTokens_of_aligned hfound

/-- The lines have the same runs, one by one. -/
abbrev SameRuns (lines lines' : List Text) : Prop :=
  List.Forall₂ (fun line line' => runs line = runs line') lines lines'

theorem bodyWidth_of_runs (hsep : rules.separator = [',']) {body body' : List Text}
    (h : SameRuns body body') (columns : ℕ) :
    Except.Related Fault.Alike Eq (bodyWidth rules columns body)
      (bodyWidth rules columns body') := by
  cases h with
  | nil => exact .of_eq Fault.Alike.refl rfl
  | @cons first first' _ _ hfirst _ =>
    unfold bodyWidth
    split_ifs
    · refine (Row.readText_of_runs hsep hfirst 1).bind fun row row' _ _ hrow => ?_
      rw [hrow.length_eq]
      exact .of_eq Fault.Alike.refl rfl
    · exact .of_eq Fault.Alike.refl rfl

theorem readRow_of_runs (hsep : rules.separator = [',']) {previous previous' : ItemMap Span}
    (hclash : ∀ row row' : Row, row.Alike row' →
      clash? previous row.spans = clash? previous' row'.spans)
    {line line' : Text} (h : runs line = runs line') (width n : ℕ) :
    Except.Related Fault.Alike Row.Alike (readRow rules width n previous line)
      (readRow rules width n previous' line') := by
  refine (Row.readText_of_runs hsep h n).bind fun row row' _ _ hrow => ?_
  simp only [hclash row row' hrow, hrow.length_eq]
  cases clash? previous' row'.spans with
  | some clash => exact .error (.refl _)
  | none =>
    split_ifs
    · exact .error (.refl _)
    · exact .ok hrow

theorem readBody_of_runs (hsep : rules.separator = [',']) {previous previous' : ItemMap Span}
    (hclash : ∀ row row' : Row, row.Alike row' →
      clash? previous row.spans = clash? previous' row'.spans)
    {body body' : List Text} (h : SameRuns body body') (width n : ℕ) :
    Except.Related Fault.Alike (List.Forall₂ Row.Alike) (readBody rules width n previous body)
      (readBody rules width n previous' body') := by
  induction h generalizing previous previous' n with
  | nil => exact .ok .nil
  | cons hline _ ih =>
    refine (readRow_of_runs hsep hclash hline width n).bind fun row row' _ _ hrow => ?_
    have hnext := ih (fun _ _ hbelow => clash?_of_alike hrow hbelow) (n + 1)
    exact hnext.bind fun others others' _ _ hothers => .ok (.cons hrow hothers)

/-- **Lines with the same runs are read as layouts that are alike**, or are refused alike. -/
theorem read_of_runs (hsep : rules.separator = [',']) {lines lines' : List Text}
    (h : SameRuns lines lines') :
    Except.Related Fault.Alike Alike (read rules lines) (read rules lines') := by
  cases h with
  | nil => exact .error (.refl _)
  | cons hfirst hbody =>
    have hheader := (readHeader_of_runs hfirst).mapError fun _ _ hd => Fault.Alike.defect hd
    refine hheader.bind fun header header' _ _ hcells => ?_
    rw [hcells.length_eq]
    refine (bodyWidth_of_runs hsep hbody header'.length).bind ?_
    rintro width _ - - rfl
    have hnone : ∀ row row' : Row, row.Alike row' → clash? [] row.spans = clash? [] row'.spans :=
      fun row row' _ => by rw [clash?_nil, clash?_nil]
    refine (readBody_of_runs hsep hnone hbody width 1).bind fun rows rows' _ _ hrows => ?_
    exact .ok ⟨hcells, hrows⟩

/-! ### Layouts that are alike -/

namespace Alike

variable {l l' : Layout}

theorem map_cells_eq (h : l.Alike l') : l.body.map Row.cells = l'.body.map Row.cells := by
  rw [← List.forall₂_eq_eq_eq, List.forall₂_map_left_iff, List.forall₂_map_right_iff]
  exact h.body.imp fun _ _ hrow => hrow.cells_eq

theorem shape_eq (h : l.Alike l') : l.shape = l'.shape := by
  have hnil : l.body = [] ↔ l'.body = [] := by
    rw [← List.length_eq_zero_iff, ← List.length_eq_zero_iff, h.body.length_eq]
  have hall : l.body.all (·.length = 1) = l'.body.all (·.length = 1) := by
    have hlengths : l.body.map List.length = l'.body.map List.length := by
      rw [← List.forall₂_eq_eq_eq, List.forall₂_map_left_iff, List.forall₂_map_right_iff]
      exact h.body.imp fun _ _ hrow => hrow.length_eq
    have hmap (rows : List Row) :
        rows.all (·.length = 1) = (rows.map List.length).all (· = 1) := by rw [List.all_map]; rfl
    rw [hmap, hlengths, ← hmap]
  unfold shape
  simp only [hnil, h.header.length_eq, hall]

theorem interior_eq (h : l.Alike l') : l.interior = l'.interior := by
  unfold interior
  rw [h.shape_eq, h.map_cells_eq]

theorem areas_eq (h : l.Alike l') : l.areas = l'.areas := by
  unfold areas mentions places
  rw [h.interior_eq]

theorem emptyCells_eq (h : l.Alike l') : l.emptyCells = l'.emptyCells := by
  unfold emptyCells places
  rw [h.interior_eq]

theorem sameSize_body (h : l.Alike l') :
    List.Forall₂ Track.SameSize (l.body.map Row.size) (l'.body.map Row.size) := by
  rw [List.forall₂_map_left_iff, List.forall₂_map_right_iff]
  refine h.body.imp fun row row' hrow => ?_
  cases hrow with
  | intro hsize => exact hsize.sameSize

theorem sameSize_header (h : l.Alike l') :
    List.Forall₂ Track.SameSize (l.header.map (·.headD [])) (l'.header.map (·.headD [])) := by
  rw [List.forall₂_map_left_iff, List.forall₂_map_right_iff]
  refine h.header.imp ?_
  rintro _ _ ⟨size, size', hsize, rfl, rfl⟩
  exact hsize.sameSize

theorem sameSize_rows (h : l.Alike l') :
    List.Forall₂ Track.SameSize (l.rows.map Row.size) (l'.rows.map Row.size) := by
  refine .cons ?_ h.sameSize_body
  obtain ⟨hheader, -⟩ := h
  generalize l.header = header, l'.header = header' at hheader
  cases hheader with
  | nil => exact .same []
  | cons hcell =>
    obtain ⟨size, size', hsize, rfl, rfl⟩ := hcell
    exact hsize.sameSize

end Alike

end Layout

end GridText
