import GridText.Plan.Source
import GridText.Proofs.Layout.Clashes
import GridText.Proofs.Row.Calls
import GridText.Proofs.Text.Lines

/-! # Plans: a text and its lines

A text is read line by line, and what a line says are its tokens. So nothing is changed by blanks
around a line or by blank lines, which are left out before the rows are counted.

* `Source.rowsOfText_joinWith`: the rows of joined texts are those of each text.
* `Layout.read_congr`: lines with the same tokens are read alike.
* `Layout.kind_of_read`: some lines, none of them blank, are not refused as empty.
* `texts_and_lines_agree`: a text is read as the rows that are laid out in it. -/

namespace GridText

open Text (Blank joinWith trim)
open Token (tokens scan)

variable {rules : Rules}

/-! ### The rows of a text -/

namespace Source

variable {s row : Text}

theorem rowsOfText_append (s t : Text) :
    rowsOfText (s ++ '\n' :: t) = rowsOfText s ++ rowsOfText t := by
  obtain ⟨gap, hgap, hlines⟩ := Text.lines_append s t
  have hnone : (gap.map trim).filter (· ≠ []) = [] := by
    rw [List.filter_eq_nil_iff, List.forall_mem_map]
    intro line hline
    rw [hgap line hline]
    decide
  unfold rowsOfText
  rw [hlines, List.map_append, List.map_append, List.filter_append, List.filter_append, hnone,
    List.append_nil]

/-- **The rows of joined texts** are those of each text. -/
theorem rowsOfText_joinWith (parts : List Text) :
    rowsOfText (joinWith ['\n'] parts) = parts.flatMap rowsOfText := by
  induction parts with
  | nil => rfl
  | cons part parts ih =>
    cases parts with
    | nil => rw [Text.joinWith_singleton, List.flatMap_singleton]
    | cons second parts =>
      rw [Text.joinWith_cons_cons, List.append_assoc, List.singleton_append, rowsOfText_append, ih]
      exact List.flatMap_cons.symm

theorem rowsOfText_eq_nil_iff : rowsOfText s = [] ↔ Blank s := by
  unfold rowsOfText
  rw [← Text.blank_lines_iff, List.filter_eq_nil_iff, List.forall_mem_map]
  refine forall₂_congr fun line _ => ?_
  rw [decide_eq_true_eq, not_not, Text.trim_eq_nil_iff]

theorem rowsOfText_line (hline : ∀ c ∈ s, isLineBreak c = false) (h : ¬ Blank s) :
    rowsOfText s = [trim s] := by
  have hne : s ≠ [] := by
    rintro rfl
    exact h Text.blank_nil
  have htrim : trim s ≠ [] := fun he => h (Text.trim_eq_nil_iff.mp he)
  unfold rowsOfText
  rw [Text.lines_unbroken hne hline]
  simp [htrim]

theorem not_blank_of_mem_rowsOfText (h : row ∈ rowsOfText s) : ¬ Blank row := by
  obtain ⟨hmem, hne⟩ := List.mem_filter.mp h
  obtain ⟨line, -, rfl⟩ := List.mem_map.mp hmem
  rw [decide_eq_true_eq] at hne
  rwa [← Text.trim_eq_nil_iff, Text.trim_trim]

/-- **Rows that are laid out in the lines of a text**: with blanks around them, and with blank lines
in front, between and behind. -/
inductive LaidOut : List Text → List Text → Prop
  | nil : LaidOut [] []
  /-- A blank line. -/
  | blank {line : Text} {rows lines : List Text} : Blank line → LaidOut rows lines →
      LaidOut rows (line :: lines)
  /-- A row with blanks around it, none of which ends a line. -/
  | row {row front back : Text} {rows lines : List Text} : Blank front → Blank back →
      (∀ c ∈ front ++ back, isLineBreak c = false) → LaidOut rows lines →
      LaidOut (row :: rows) ((front ++ row ++ back) :: lines)

/-- **The rows of a text are cut into the tokens of the rows that are laid out in it.** -/
theorem LaidOut.scan_eq {rows lines : List Text} (h : LaidOut rows lines)
    (hrows : ∀ row ∈ rows, ¬ Blank row ∧ ∀ c ∈ row, isLineBreak c = false) :
    List.Forall₂ (fun row row' => scan row = scan row') (rowsOfText (joinWith ['\n'] lines))
      rows := by
  rw [rowsOfText_joinWith]
  induction h with
  | nil => exact .nil
  | blank hline _ ih =>
    rw [List.flatMap_cons, rowsOfText_eq_nil_iff.mpr hline, List.nil_append]
    exact ih hrows
  | @row row front back rows lines hfront hback hbreak _ ih =>
    obtain ⟨⟨hrow, hunbroken⟩, hrest⟩ := List.forall_mem_cons.mp hrows
    have hline : ∀ c ∈ front ++ row ++ back, isLineBreak c = false := by
      intro c hc
      simp only [List.mem_append] at hc hbreak
      rcases hc with (hc | hc) | hc
      · exact hbreak c (Or.inl hc)
      · exact hunbroken c hc
      · exact hbreak c (Or.inr hc)
    have hnot : ¬ Blank (front ++ row ++ back) := fun h =>
      hrow fun c hc => h c (List.mem_append_left _ (List.mem_append_right _ hc))
    have htokens : tokens (trim (front ++ row ++ back)) = tokens row := by
      rw [Token.tokens_trim, Token.tokens_append_blank hback, Token.tokens_blank_append hfront]
    have hne : tokens row ≠ [] := fun he => hrow (Token.tokens_eq_nil_iff.mp he)
    rw [List.flatMap_cons, rowsOfText_line hline hnot, List.singleton_append]
    refine .cons ?_ (ih hrest)
    rw [Row.scan_eq_ok_iff.mpr ⟨hne, rfl⟩, Row.scan_eq_ok_iff.mpr ⟨hne, htokens⟩]

end Source

/-! ### Lines that are read alike -/

namespace Layout

variable {lines lines' body body' : List Text}

theorem readText_congr {line line' : Text} (h : scan line = scan line') (n : Int) :
    Row.readText rules n line = Row.readText rules n line' := by
  unfold Row.readText
  rw [h]

theorem readBody_congr (h : List.Forall₂ (fun line line' => scan line = scan line') body body')
    (width n : ℕ) (previous : ItemMap Span) :
    readBody rules width n previous body = readBody rules width n previous body' := by
  induction h generalizing n previous with
  | nil => rfl
  | @cons line line' _ _ hline _ ih =>
    have hrow : readRow rules width n previous line = readRow rules width n previous line' := by
      unfold readRow
      rw [readText_congr hline]
    unfold readBody
    rw [hrow]
    simp only [ih]

/-- **Lines with the same tokens are read alike.** -/
theorem read_congr (h : List.Forall₂ (fun line line' => scan line = scan line') lines lines') :
    read rules lines = read rules lines' := by
  cases h with
  | nil => rfl
  | @cons first first' body body' hfirst hbody =>
    have hheader : readHeader first = readHeader first' := by
      unfold readHeader
      rw [hfirst]
    have hwidth (columns : ℕ) : bodyWidth rules columns body = bodyWidth rules columns body' := by
      cases hbody with
      | nil => rfl
      | @cons line line' _ _ hline _ =>
        have hrow : Row.readText rules 1 line = Row.readText rules 1 line' :=
          readText_congr hline 1
        unfold bodyWidth
        simp only [hrow]
    have hrows (width : ℕ) : readBody rules width 1 [] body = readBody rules width 1 [] body' :=
      readBody_congr hbody width 1 []
    unfold read
    simp only [hheader, hwidth, hrows]

/-! ### What lines with tokens are refused for -/

/-- The kinds of defects of lines that hold nothing. -/
def emptyKinds : List Defect.Kind := [.emptyInput, .emptyRow, .malformedRow]

theorem kind_of_ofTokens {d : Defect} (h : Fault.OfTokens (.defect d)) : d.kind ∉ emptyKinds := by
  have hapart : ∀ kind ∈ tokenKinds, kind ∉ emptyKinds := by decide
  exact hapart d.kind (h d rfl)

theorem kind_of_readText {n : Int} {line : Text} {d : Defect} (hline : ¬ Blank line)
    (h : Row.readText rules n line = .error (.defect d)) : d.kind ∉ emptyKinds := by
  rcases Row.fault_of_readText h with ⟨-, hblank⟩ | h
  · exact absurd hblank hline
  · exact kind_of_ofTokens h

theorem kind_of_bodyWidth {columns : ℕ} {d : Defect} (hlines : ∀ line ∈ body, ¬ Blank line)
    (h : bodyWidth rules columns body = .error (.defect d)) : d.kind ∉ emptyKinds := by
  cases body with
  | nil => cases h
  | cons first body =>
    unfold bodyWidth at h
    simp only at h
    split_ifs at h
    rcases Except.bind_eq_error_iff.mp h with h | ⟨row, -, h⟩
    · exact kind_of_readText (hlines first List.mem_cons_self) h
    · split_ifs at h
      obtain rfl := Fault.defect.inj (Except.error.inj h)
      simp [emptyKinds, Defect.kind]

theorem kind_of_readRow {width n : ℕ} {previous : ItemMap Span} {line : Text} {d : Defect}
    (hline : ¬ Blank line) (h : readRow rules width n previous line = .error (.defect d)) :
    d.kind ∉ emptyKinds := by
  rcases Except.bind_eq_error_iff.mp h with h | ⟨row, -, h⟩
  · exact kind_of_readText hline h
  cases hclash : clash? previous row.spans with
  | some clash =>
    simp only [hclash] at h
    obtain rfl := Fault.defect.inj (Except.error.inj h)
    simp [emptyKinds, Defect.kind]
  | none =>
    simp only [hclash] at h
    split_ifs at h
    obtain rfl := Fault.defect.inj (Except.error.inj h)
    simp [emptyKinds, Defect.kind]

/-- **Some lines, none of them blank, are not refused as empty.** -/
theorem kind_of_read (hne : lines ≠ []) (hlines : ∀ line ∈ lines, ¬ Blank line) {d : Defect}
    (h : read rules lines = .error (.defect d)) : d.kind ∉ emptyKinds := by
  obtain ⟨first, body, rfl⟩ := List.exists_cons_of_ne_nil hne
  obtain ⟨hfirst, hbody⟩ := List.forall_mem_cons.mp hlines
  rcases read_cons_eq_error_iff.mp h with ⟨d', hd, he⟩ | ⟨header, -, h | ⟨width, -, h⟩⟩
  · obtain rfl := Fault.defect.inj he
    rcases fault_of_readHeader hd with ⟨-, hblank⟩ | h
    · exact absurd hblank hfirst
    · exact kind_of_ofTokens h
  · exact kind_of_bodyWidth hbody h
  · obtain ⟨front, line, after, rows, rfl, -, hline⟩ := readBody_eq_error_iff.mp h
    exact kind_of_readRow (hbody line (by simp)) hline

end Layout

/-! ### Plans -/

namespace Plan

open Source (LaidOut rowsOfText)

theorem ofSource_rows (rules : Rules) (rows : List Text) :
    ofSource rules (.rows rows) = (ofRows rules rows).mapError .fault := rfl

theorem ofSource_text (rules : Rules) (text : Text) : ofSource rules (.template [text] []) =
    (ofRows rules (rowsOfText text)).mapError .fault := by
  simp [ofSource, ofText, Template.interpolate, Value.writeAll, Template.weave, Except.map,
    Except.mapError, bind, Except.bind]

theorem ofRows_eq_error_iff {rows : List Text} {f : Fault} :
    ofRows rules rows = .error f ↔ Layout.read rules rows = .error f := by
  unfold ofRows
  rw [Except.bind_eq_error_iff]
  exact ⟨fun h => h.resolve_right (by rintro ⟨l, -, ⟨⟩⟩), Or.inl⟩

/-- **A text and its lines have the same plan.** Rows that hold something are read from the lines of
a text in which they are laid out as they are read by themselves: as an equal plan, or refused for
the same fault, whose row is counted without the blank lines. No text is refused for a row that
holds nothing, and one that is blank is refused as empty. -/
theorem texts_and_lines_agree (rules : Rules) :
    (∀ rows lines, (∀ row ∈ rows, ¬ Blank row ∧ ∀ c ∈ row, isLineBreak c = false) →
      LaidOut rows lines →
      ofSource rules (.template [joinWith ['\n'] lines] []) = ofSource rules (.rows rows)) ∧
    ∀ text,
      (∀ row, ofSource rules (.template [text] []) ≠
        .error (.fault (.defect (.malformedRow row)))) ∧
      (∀ n, ofSource rules (.template [text] []) ≠ .error (.fault (.defect (.emptyRow n)))) ∧
      (ofSource rules (.template [text] []) = .error (.fault (.defect .emptyInput)) ↔
        Blank text) := by
  refine ⟨fun rows lines hrows hlaid => ?_, fun text => ?_⟩
  · rw [ofSource_text, ofSource_rows, ofRows, ofRows, Layout.read_congr (hlaid.scan_eq hrows)]
  · have hkind : ∀ d, ofSource rules (.template [text] []) = .error (.fault (.defect d)) →
        d.kind ∈ Layout.emptyKinds → rowsOfText text = [] := by
      intro d h hd
      rw [ofSource_text] at h
      obtain ⟨f, hf, he⟩ := Except.mapError_eq_error_iff.mp h
      obtain rfl := Source.Error.fault.inj he
      by_contra hne
      exact Layout.kind_of_read hne (fun row => Source.not_blank_of_mem_rowsOfText)
        (ofRows_eq_error_iff.mp hf) hd
    have hnone : rowsOfText text = [] →
        ofSource rules (.template [text] []) = .error (.fault (.defect .emptyInput)) := by
      intro h
      rw [ofSource_text, h]
      rfl
    refine ⟨fun row h => ?_, fun n h => ?_, fun h => ?_, fun h => ?_⟩
    · have := hkind _ h (by simp [Layout.emptyKinds, Defect.kind])
      rw [hnone this] at h
      cases h
    · have := hkind _ h (by simp [Layout.emptyKinds, Defect.kind])
      rw [hnone this] at h
      cases h
    · exact Source.rowsOfText_eq_nil_iff.mp (hkind _ h (by decide))
    · exact hnone (Source.rowsOfText_eq_nil_iff.mpr h)

/-- An indented text with blank lines, one of them an ideographic space. The row that is too short
is row 2, although it is on the fifth line. -/
theorem blank_lines_are_not_counted :
    (∀ row ∈ ["1fr 1fr".toList, "1fr A B".toList, "2fr A".toList],
      ¬ Blank row ∧ ∀ c ∈ row, isLineBreak c = false) ∧
    LaidOut ["1fr 1fr".toList, "1fr A B".toList, "2fr A".toList]
      [[], "     1fr 1fr\t".toList, "\u3000".toList, " 1fr A B".toList, "2fr A\u00a0".toList,
        "  ".toList] ∧
    ofSource {} (.template [joinWith ['\n'] [[], "     1fr 1fr\t".toList, "\u3000".toList,
        " 1fr A B".toList, "2fr A\u00a0".toList, "  ".toList]] []) =
      .error (.fault (.defect (.rowSizeMismatch 2 2 3))) ∧
    Blank "\r\n \u2028".toList ∧
    ofSource {} (.template ["\r\n \u2028".toList] []) =
      .error (.fault (.defect .emptyInput)) := by
  have hunbroken {s : Text} (h : s.any isLineBreak = false) : ∀ c ∈ s, isLineBreak c = false :=
    fun c hc => Bool.eq_false_iff.mpr (List.any_eq_false.mp h c hc)
  have hrows : ∀ row ∈ ["1fr 1fr".toList, "1fr A B".toList, "2fr A".toList],
      ¬ Blank row ∧ ∀ c ∈ row, isLineBreak c = false := by
    have hdecided : ∀ row ∈ ["1fr 1fr".toList, "1fr A B".toList, "2fr A".toList],
        ¬ Blank row ∧ row.any isLineBreak = false := by decide
    exact fun row hrow => (hdecided row hrow).imp_right hunbroken
  have hlaid : LaidOut ["1fr 1fr".toList, "1fr A B".toList, "2fr A".toList]
      [[], "     1fr 1fr\t".toList, "\u3000".toList, " 1fr A B".toList, "2fr A\u00a0".toList,
        "  ".toList] := by
    have hlast : LaidOut ["2fr A".toList] ["2fr A\u00a0".toList, "  ".toList] :=
      @LaidOut.row _ [] ['\u00a0'] _ _ (by decide) (by decide) (hunbroken (by decide))
        (.blank (by decide) .nil)
    have hmiddle : LaidOut ["1fr A B".toList, "2fr A".toList]
        [" 1fr A B".toList, "2fr A\u00a0".toList, "  ".toList] :=
      @LaidOut.row _ [' '] [] _ _ (by decide) (by decide) (hunbroken (by decide)) hlast
    exact .blank (by decide) (@LaidOut.row _ "     ".toList ['\t'] _ _ (by decide) (by decide)
      (hunbroken (by decide)) (.blank (by decide) hmiddle))
  have hblank : Blank "\r\n \u2028".toList := by decide
  obtain ⟨hlines, htexts⟩ := texts_and_lines_agree {}
  refine ⟨hrows, hlaid, ?_, hblank, (htexts _).2.2.mpr hblank⟩
  rw [hlines _ _ hrows hlaid]
  decide +kernel

end Plan

end GridText
