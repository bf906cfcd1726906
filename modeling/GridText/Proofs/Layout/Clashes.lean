import GridText.Proofs.Layout.Language
import GridText.Proofs.Row.Faults

/-! # Reading a layout: values that two rows disagree on

Reading stops for a value with other spans than on the row above at the first two rows that do not
agree (`read_eq_clash_iff`). The spans count the size of a row as its first value, so that a value
may be an item on one of the rows and the size of the other. `Row.Differ` lists the four ways to
disagree; only in the first of them the value is an item of both rows that covers other columns.

* `readBody_eq_error_iff`: the first row that is refused ends the reading.
* `spans_compare_items_and_sizes`: which rows are let through and which are refused. -/

namespace GridText

variable {rules : Rules}

/-! ### Faults of a single row -/

/-- The fault does not speak of two rows. -/
def Fault.OfOneRow (f : Fault) : Prop :=
  ∀ item m before span, f ≠ .defect (.nonRectangularSpan item m before span)

theorem Fault.OfTokens.ofOneRow {f : Fault} (h : f.OfTokens) : f.OfOneRow := by
  rintro item m before span rfl
  exact absurd (h _ rfl) (by simp [tokenKinds, Defect.kind])

theorem Fault.ofOneRow_malformedRow (line : Text) :
    Fault.OfOneRow (.defect (.malformedRow line)) := by
  rintro item m before span ⟨⟩

namespace Row

theorem ofOneRow_of_readText {n : Int} {line : Text} {f : Fault}
    (h : readText rules n line = .error f) : f.OfOneRow := by
  rcases fault_of_readText h with ⟨rfl, -⟩ | h
  · exact Fault.ofOneRow_malformedRow line
  · exact h.ofOneRow

theorem regular_of_readText {n : Int} {line : Text} {row : Row}
    (h : readText rules n line = .ok row) : Regular row := by
  obtain ⟨hwf, rfl⟩ := readText_eq_ok_iff.mp h
  exact hwf.regular

end Row

namespace Layout

/-- What a clash shows: the spans of one value, which are different. -/
theorem find?_of_clash? {previous current : ItemMap Span} (hcurrent : current.items.Nodup)
    {item : Text} {before span : Span} (h : clash? previous current = some (item, before, span)) :
    previous.find? item = some before ∧ current.find? item = some span ∧ before ≠ span := by
  obtain ⟨⟨item', span'⟩, hmem, h⟩ := List.exists_of_findSome?_eq_some h
  obtain ⟨before', hbefore, h⟩ := Option.bind_eq_some_iff.mp h
  split_ifs at h with hne
  simp only [Option.some.injEq, Prod.mk.injEq] at h
  obtain ⟨rfl, rfl, rfl⟩ := h
  exact ⟨hbefore, (ItemMap.mem_iff_find? hcurrent).mp hmem, hne⟩

theorem not_agreeOn_of_clash? {above below : Row} {item : Text} {before span : Span}
    (h : clash? above.spans below.spans = some (item, before, span)) :
    ¬ Row.AgreeOn above below item := by
  obtain ⟨hbefore, hspan, hne⟩ := find?_of_clash? (Row.nodup_items_spans below) h
  obtain ⟨left, right, rfl, ha⟩ := Row.find?_spans_eq_some_iff.mp hbefore
  obtain ⟨left', right', rfl, hb⟩ := Row.find?_spans_eq_some_iff.mp hspan
  intro hagree
  obtain ⟨rfl, rfl⟩ := hagree _ _ _ _ ha hb
  exact hne rfl

theorem exists_clash?_iff {above below : Row} (ha : above.Regular) (hb : below.Regular) :
    (∃ clash, clash? above.spans below.spans = some clash) ↔
      ∃ item, Row.Differ item above below := by
  rw [← Option.ne_none_iff_exists', ne_eq, clash?_spans_eq_none_iff, Row.agree_iff_agreeOn,
    not_forall]
  simp only [Row.not_agreeOn_iff ha hb]

/-! ### The first row that is refused -/

/-- The spans of the last of some rows, or the given ones if there is no row. -/
def lastSpans (previous : ItemMap Span) (rows : List Row) : ItemMap Span :=
  (rows.getLast?.map Row.spans).getD previous

theorem lastSpans_cons (previous : ItemMap Span) (row : Row) (rows : List Row) :
    lastSpans previous (row :: rows) = lastSpans row.spans rows := by
  unfold lastSpans
  rw [List.getLast?_cons]
  cases rows.getLast? <;> rfl

/-- **The first row that is refused ends the reading**, below rows that were read. -/
theorem readBody_eq_error_iff {width n : ℕ} {previous : ItemMap Span} {lines : List Text}
    {f : Fault} :
    readBody rules width n previous lines = .error f ↔ ∃ front line after rows,
      lines = front ++ line :: after ∧ readBody rules width n previous front = .ok rows ∧
        readRow rules width (n + front.length) (lastSpans previous rows) line = .error f := by
  induction lines generalizing n previous with
  | nil =>
    constructor
    · rintro ⟨⟩
    · rintro ⟨front, line, after, rows, h, -⟩
      simp at h
  | cons line lines ih =>
    simp only [readBody, Except.bind_eq_error_iff]
    constructor
    · rintro (h | ⟨found, hfound, h | ⟨_, -, h⟩⟩)
      · exact ⟨[], line, lines, [], rfl, rfl, h⟩
      · obtain ⟨front, line', after, rows, rfl, hrows, h⟩ := ih.mp h
        refine ⟨line :: front, line', after, found :: rows, rfl, ?_, ?_⟩
        · simp only [readBody, Except.bind_eq_ok_iff, Except.pure_eq_ok_iff]
          exact ⟨found, hfound, rows, hrows, rfl⟩
        · rwa [lastSpans_cons, List.length_cons, Nat.add_comm front.length, ← Nat.add_assoc]
      · cases h
    · rintro ⟨front, line', after, rows, hlines, hrows, h⟩
      cases front with
      | nil =>
        obtain ⟨rfl, rfl⟩ := List.cons.inj hlines
        obtain rfl := Except.ok.inj hrows
        exact Or.inl h
      | cons first front =>
        obtain ⟨rfl, rfl⟩ := List.cons.inj hlines
        simp only [readBody, Except.bind_eq_ok_iff, Except.pure_eq_ok_iff] at hrows
        obtain ⟨found, hfound, rows, hrows, rfl⟩ := hrows
        rw [lastSpans_cons, List.length_cons, Nat.add_comm front.length, ← Nat.add_assoc] at h
        exact Or.inr ⟨found, hfound, Or.inl (ih.mpr ⟨front, line', after, rows, rfl, hrows, h⟩)⟩

theorem readRow_eq_clash_iff {width n : ℕ} {previous : ItemMap Span} {line item : Text} {m : Int}
    {before span : Span} :
    readRow rules width n previous line =
        .error (.defect (.nonRectangularSpan item m before span)) ↔
      m = n ∧ ∃ found, Row.readText rules n line = .ok found ∧
        clash? previous found.spans = some (item, before, span) := by
  unfold readRow
  rw [Except.bind_eq_error_iff]
  constructor
  · rintro (h | ⟨found, hfound, h⟩)
    · exact absurd rfl (Row.ofOneRow_of_readText h item m before span)
    · cases hclash : clash? previous found.spans with
      | none =>
        simp only [hclash] at h
        split_ifs at h
        cases h
      | some clash =>
        simp only [hclash, Except.error.injEq, Fault.defect.injEq,
          Defect.nonRectangularSpan.injEq] at h
        obtain ⟨rfl, rfl, rfl, rfl⟩ := h
        exact ⟨rfl, found, hfound, hclash⟩
  · rintro ⟨rfl, found, hfound, hclash⟩
    refine Or.inr ⟨found, hfound, ?_⟩
    simp only [hclash]

theorem bodyWidth_append {columns : ℕ} {front : List Text} (h : front ≠ []) (after : List Text) :
    bodyWidth rules columns (front ++ after) = bodyWidth rules columns front := by
  obtain ⟨first, front, rfl⟩ := List.exists_cons_of_ne_nil h
  rfl

theorem ofOneRow_of_bodyWidth {columns : ℕ} {body : List Text} {f : Fault}
    (h : bodyWidth rules columns body = .error f) : f.OfOneRow := by
  cases body with
  | nil => cases h
  | cons first body =>
    unfold bodyWidth at h
    simp only at h
    split_ifs at h
    rcases Except.bind_eq_error_iff.mp h with h | ⟨row, -, h⟩
    · exact Row.ofOneRow_of_readText h
    · split_ifs at h
      obtain rfl := Except.error.inj h
      rintro item m before span ⟨⟩

theorem ofOneRow_of_readHeader {line : Text} {d : Defect} (h : readHeader line = .error d) :
    Fault.OfOneRow (.defect d) := by
  rcases fault_of_readHeader h with ⟨rfl, -⟩ | h
  · exact Fault.ofOneRow_malformedRow line
  · exact h.ofOneRow

/-- The row `above` is the last of the first `n` lines, which are read without fault, and `below` is
read from the line that follows. -/
def Meet (rules : Rules) (lines : List Text) (n : ℕ) (above below : Row) : Prop :=
  ∃ l line, read rules (lines.take n) = .ok l ∧ l.body.getLast? = some above ∧
    lines[n]? = some line ∧ Row.readText rules n line = .ok below

theorem meet_of_read {lines : List Text} {item : Text} {m : Int} {before span : Span}
    (h : read rules lines = .error (.defect (.nonRectangularSpan item m before span))) :
    ∃ n above below, m = (n : ℕ) ∧ Meet rules lines n above below ∧
      clash? above.spans below.spans = some (item, before, span) := by
  cases lines with
  | nil => cases h
  | cons first body =>
    rcases read_cons_eq_error_iff.mp h with
      ⟨d, hd, he⟩ | ⟨header, hheader, h | ⟨width, hwidth, h⟩⟩
    · exact absurd he (ofOneRow_of_readHeader hd item m before span)
    · exact absurd rfl (ofOneRow_of_bodyWidth h item m before span)
    · obtain ⟨front, line, after, rows, rfl, hrows, hline⟩ := readBody_eq_error_iff.mp h
      obtain ⟨rfl, below, hbelow, hclash⟩ := readRow_eq_clash_iff.mp hline
      cases hlast : rows.getLast? with
      | none =>
        obtain rfl := List.getLast?_eq_none_iff.mp hlast
        rw [show lastSpans [] [] = [] from rfl, clash?_nil] at hclash
        cases hclash
      | some above =>
        unfold lastSpans at hclash
        rw [hlast] at hclash
        have hfront : front ≠ [] := by
          rintro rfl
          obtain rfl := Except.ok.inj hrows
          cases hlast
        rw [bodyWidth_append hfront] at hwidth
        have hread : read rules (first :: front) = .ok ⟨header, rows⟩ :=
          read_cons_eq_ok_iff.mpr ⟨width, hheader, hwidth, hrows⟩
        refine ⟨1 + front.length, above, below, rfl,
          ⟨⟨header, rows⟩, line, ?_, hlast, ?_, hbelow⟩, hclash⟩
        · rwa [Nat.add_comm, List.take_succ_cons, List.take_left]
        · rw [Nat.add_comm, List.getElem?_cons_succ, List.getElem?_append_right (Nat.le_refl _),
            Nat.sub_self, List.getElem?_cons_zero]

theorem Meet.read_eq {lines : List Text} {n : ℕ} {above below : Row} {item : Text}
    {before span : Span} (h : Meet rules lines n above below)
    (hclash : clash? above.spans below.spans = some (item, before, span)) :
    read rules lines = .error (.defect (.nonRectangularSpan item n before span)) := by
  obtain ⟨l, line, hread, hlast, hline, hbelow⟩ := h
  obtain ⟨first, body, rfl⟩ : ∃ first body, lines = first :: body := by
    refine List.exists_cons_of_ne_nil ?_
    rintro rfl
    cases hline
  cases n with
  | zero => cases hread
  | succ n =>
    rw [List.take_succ_cons] at hread
    rw [List.getElem?_cons_succ] at hline
    obtain ⟨width, hheader, hwidth, hrows⟩ := read_cons_eq_ok_iff.mp hread
    obtain ⟨hn, rfl⟩ := List.getElem?_eq_some_iff.mp hline
    have hbody : body = body.take n ++ body[n] :: body.drop (n + 1) := by
      rw [List.getElem_cons_drop, List.take_append_drop]
    have hfront : body.take n ≠ [] := by
      intro he
      rw [he] at hrows
      rw [← Except.ok.inj hrows] at hlast
      cases hlast
    have hlength : 1 + (body.take n).length = n + 1 := by
      rw [List.length_take]
      omega
    have hspans : lastSpans [] l.body = above.spans := by
      unfold lastSpans
      rw [hlast]
      rfl
    have hrow : readRow rules width (n + 1) (lastSpans [] l.body) body[n] =
        .error (.defect (.nonRectangularSpan item (n + 1 : ℕ) before span)) := by
      rw [hspans]
      exact readRow_eq_clash_iff.mpr ⟨rfl, below, hbelow, hclash⟩
    rw [← bodyWidth_append hfront, ← hbody] at hwidth
    refine read_cons_eq_error_iff.mpr (Or.inr ⟨l.header, hheader, Or.inr ⟨width, hwidth, ?_⟩⟩)
    exact readBody_eq_error_iff.mpr ⟨_, _, _, l.body, hbody, hrows, by rwa [hlength]⟩

/-- **Where reading stops for two rows that clash.** -/
theorem read_eq_clash_iff {lines : List Text} {item : Text} {m : Int} {before span : Span} :
    read rules lines = .error (.defect (.nonRectangularSpan item m before span)) ↔
      ∃ n above below, m = (n : ℕ) ∧ Meet rules lines n above below ∧
        clash? above.spans below.spans = some (item, before, span) := by
  refine ⟨meet_of_read, ?_⟩
  rintro ⟨n, above, below, rfl, hmeet, hclash⟩
  exact hmeet.read_eq hclash

theorem Meet.regular {lines : List Text} {n : ℕ} {above below : Row}
    (h : Meet rules lines n above below) : above.Regular ∧ below.Regular := by
  obtain ⟨l, line, hread, hlast, -, hbelow⟩ := h
  exact ⟨(regular_of_read hread).rows above (List.mem_of_getLast? hlast),
    Row.regular_of_readText hbelow⟩

/-! ### What is compared -/

/-- **The spans compare items and sizes alike.** Rows that are let through agree on the columns of
an item that is spelt like neither size, and on the right-most column alone of an item that is spelt
like both; an item that is spelt like one of the sizes does not stand on both rows. Two rows are
refused exactly when they differ in one of the four ways of `Row.Differ`, and then for a value on
which they do. -/
theorem spans_compare_items_and_sizes (rules : Rules) (lines : List Text) :
    (∀ l, read rules lines = .ok l → ∀ i above below, l.body[i]? = some above →
      l.body[i + 1]? = some below → ∀ item, item ∈ above.cells.flatten →
      item ∈ below.cells.flatten →
        (item ≠ above.size ∧ item ≠ below.size ∧ Row.SameColumns item above.cells below.cells) ∨
        (item = above.size ∧ item = below.size ∧ Row.SameLast item above.cells below.cells)) ∧
    (∀ item m before span,
      read rules lines = .error (.defect (.nonRectangularSpan item m before span)) →
      ∃ n above below, m = (n : ℕ) ∧ Meet rules lines n above below ∧
        Row.Differ item above below) ∧
    ∀ n above below, Meet rules lines n above below → (∃ item, Row.Differ item above below) →
      ∃ item before span,
        read rules lines = .error (.defect (.nonRectangularSpan item n before span)) := by
  refine ⟨fun l hread i above below ha hb item hia hib => ?_, fun item m before span h => ?_,
    fun n above below hmeet hdiffer => ?_⟩
  · have hl := regular_of_read hread
    exact (hl.agree_getElem? ha hb).columns_or_last (hl.rows above (List.mem_of_getElem? ha))
      (hl.rows below (List.mem_of_getElem? hb)) hia hib
  · obtain ⟨n, above, below, hm, hmeet, hclash⟩ := read_eq_clash_iff.mp h
    obtain ⟨ha, hb⟩ := hmeet.regular
    exact ⟨n, above, below, hm, hmeet,
      (Row.not_agreeOn_iff ha hb).mp (not_agreeOn_of_clash? hclash)⟩
  · obtain ⟨ha, hb⟩ := hmeet.regular
    obtain ⟨⟨item, before, span⟩, hclash⟩ := (exists_clash?_iff ha hb).mpr hdiffer
    exact ⟨item, before, span, read_eq_clash_iff.mpr ⟨n, above, below, rfl, hmeet, hclash⟩⟩

/-- A layout is read with the item `1fr` in both columns of one row and in the second of the next;
and a layout is refused for a `1fr` that is no item of the row above. -/
theorem sizes_take_part_in_the_comparison :
    (∃ l above below, read {} ["1fr 1fr".toList, "1fr 1fr 1fr".toList, "1fr A 1fr".toList] = .ok l ∧
      l.body[0]? = some above ∧ l.body[1]? = some below ∧ "1fr".toList ∈ above.cells.flatten ∧
      "1fr".toList ∈ below.cells.flatten ∧
      ¬ Row.SameColumns "1fr".toList above.cells below.cells) ∧
    ∃ above below before span,
      Meet {} ["1fr".toList, "1fr A".toList, "2fr 1fr".toList] 2 above below ∧
      read {} ["1fr".toList, "1fr A".toList, "2fr 1fr".toList] =
        .error (.defect (.nonRectangularSpan "1fr".toList 2 before span)) ∧
      "1fr".toList ∉ above.cells.flatten := by
  constructor
  · have hread : read {} ["1fr 1fr".toList, "1fr 1fr 1fr".toList, "1fr A 1fr".toList] =
        .ok ⟨[["1fr".toList], ["1fr".toList]], [[["1fr".toList], ["1fr".toList], ["1fr".toList]],
          [["1fr".toList], [['A']], ["1fr".toList]]]⟩ := by decide +kernel
    refine ⟨_, _, _, hread, rfl, rfl, by decide, by decide, fun hsame => ?_⟩
    have habove : Row.At [["1fr".toList], ["1fr".toList]] "1fr".toList 0 :=
      ⟨_, rfl, List.mem_singleton.mpr rfl⟩
    obtain ⟨cell, hcell, hitem⟩ := (hsame 0).mp habove
    obtain rfl := Option.some.inj hcell
    exact absurd hitem (by decide)
  · have hfront : read {} ["1fr".toList, "1fr A".toList] =
        .ok ⟨[["1fr".toList]], [[["1fr".toList], [['A']]]]⟩ := by decide +kernel
    have hbelow : Row.readText {} 2 "2fr 1fr".toList = .ok [["2fr".toList], ["1fr".toList]] := by
      decide +kernel
    have hrefused : read {} ["1fr".toList, "1fr A".toList, "2fr 1fr".toList] =
        .error (.defect (.nonRectangularSpan "1fr".toList 2 ⟨0, 0⟩ ⟨1, 1⟩)) := by decide +kernel
    exact ⟨_, _, _, _, ⟨_, _, hfront, rfl, rfl, hbelow⟩, hrefused, by decide⟩

end Layout

end GridText
