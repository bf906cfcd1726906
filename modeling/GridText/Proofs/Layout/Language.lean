import GridText.Layout.Reading
import GridText.Proofs.Row.Columns
import Mathlib.Data.List.Chain

/-! # Reading a layout: the language of layouts

`InLanguage` says of the tokens of all rows together which of them are a layout: no reading from
left to right or from one row to the next is left in it.

* `clash?_spans_eq_none_iff`: two rows agree when every value that stands on both has the same
  left-most and the same right-most position on both.
* `readHeader_eq_ok_iff`, `readBody_eq_ok_iff`, `exists_bodyWidth_iff`: the three parts of reading.
* `read_eq_ok_iff_inLanguage`: what is read, under any rules.
* `read_eq_ok_iff_valid`: lines are read as the layout that they spell, if it is valid.
* `reads_exactly_the_language`: under rules with a separator, exactly the language is read. -/

namespace GridText

namespace Layout

variable {rules : Rules}

/-! ### Rows that agree -/

theorem clash?_eq_none_iff {previous current : ItemMap Span} (h : current.items.Nodup) :
    clash? previous current = none ↔ ∀ item before span, previous.find? item = some before →
      current.find? item = some span → before = span := by
  simp only [clash?, List.findSome?_eq_none_iff, Prod.forall, Option.bind_eq_none_iff,
    ite_eq_left_iff, reduceCtorEq, imp_false, not_not, ItemMap.mem_iff_find? h]
  exact ⟨fun hc item before span hb hs => hc item span hs before hb,
    fun hc item span hs before hb => hc item before span hb hs⟩

theorem clash?_spans_eq_none_iff {above below : Row} :
    clash? above.spans below.spans = none ↔ Row.Agree above below := by
  rw [clash?_eq_none_iff (Row.nodup_items_spans below)]
  simp only [Row.find?_spans_eq_some_iff]
  constructor
  · intro h item left right left' right' ha hb
    have := h item _ _ ⟨left, right, rfl, ha⟩ ⟨left', right', rfl, hb⟩
    rw [Span.mk.injEq] at this
    omega
  · rintro h item _ _ ⟨left, right, rfl, ha⟩ ⟨left', right', rfl, hb⟩
    obtain ⟨rfl, rfl⟩ := h item _ _ _ _ ha hb
    rfl

theorem clash?_nil (current : ItemMap Span) : clash? [] current = none := by
  simp [clash?, ItemMap.find?]

/-! ### The parts of reading -/

theorem headerOfTokens_eq_ok_iff {found : List Text} {row : Row} :
    headerOfTokens found = .ok row ↔
      (∀ size ∈ found, Track.Size size) ∧ row = found.map ([·]) := by
  induction found generalizing row with
  | nil => simp [headerOfTokens, eq_comm]
  | cons size sizes ih =>
    simp only [headerOfTokens, Except.bind_eq_ok_iff, Except.pure_eq_ok_iff, ih,
      List.forall_mem_cons, ← Track.exists_classify_iff, List.map_cons]
    constructor
    · rintro ⟨kind, hkind, _, ⟨hsizes, rfl⟩, rfl⟩
      exact ⟨⟨⟨kind, hkind⟩, hsizes⟩, rfl⟩
    · rintro ⟨⟨⟨kind, hkind⟩, hsizes⟩, rfl⟩
      exact ⟨kind, hkind, _, ⟨hsizes, rfl⟩, rfl⟩

theorem readHeader_eq_ok_iff {line : Text} {row : Row} :
    readHeader line = .ok row ↔ Token.tokens line ≠ [] ∧
      (∀ size ∈ Token.tokens line, Track.Size size) ∧ row = (Token.tokens line).map ([·]) := by
  unfold readHeader
  simp only [Except.bind_eq_ok_iff, Row.scan_eq_ok_iff, headerOfTokens_eq_ok_iff]
  constructor
  · rintro ⟨_, ⟨hne, rfl⟩, h⟩
    exact ⟨hne, h⟩
  · rintro ⟨hne, h⟩
    exact ⟨_, ⟨hne, rfl⟩, h⟩

theorem readRow_eq_ok_iff {width n : ℕ} {previous : ItemMap Span} {line : Text} {row : Row} :
    readRow rules width n previous line = .ok row ↔
      (Row.WellFormed rules (Token.tokens line) ∧ row = Row.ofTokens rules (Token.tokens line)) ∧
        clash? previous row.spans = none ∧ row.length = width := by
  unfold readRow
  rw [Except.bind_eq_ok_iff]
  simp only [Row.readText_eq_ok_iff]
  constructor
  · rintro ⟨found, hfound, h⟩
    cases hclash : clash? previous found.spans with
    | some clash => rw [hclash] at h; cases h
    | none =>
      simp only [hclash] at h
      split_ifs at h with hlen
      obtain rfl := Except.ok.inj h
      exact ⟨hfound, hclash, not_not.mp hlen⟩
  · rintro ⟨hrow, hclash, hlen⟩
    refine ⟨row, hrow, ?_⟩
    simp only [hclash]
    rw [if_neg (not_not.mpr hlen)]

/-- **The body is read** when each of its rows is well formed and has the right number of values,
and any two rows one below the other agree. -/
theorem readBody_eq_ok_iff {width n : ℕ} {previous : ItemMap Span} {lines : List Text}
    {rows : List Row} :
    readBody rules width n previous lines = .ok rows ↔
      rows = lines.map (fun line => Row.ofTokens rules (Token.tokens line)) ∧
        (∀ line ∈ lines, Row.WellFormed rules (Token.tokens line) ∧
          (Token.tokens line).length = width) ∧
        (∀ row ∈ rows.head?, clash? previous row.spans = none) ∧ rows.IsChain Row.Agree := by
  induction lines generalizing n previous rows with
  | nil =>
    simp only [readBody, Except.ok.injEq, List.map_nil]
    constructor
    · rintro rfl; simp
    · rintro ⟨rfl, -⟩; rfl
  | cons line lines ih =>
    simp only [readBody, Except.bind_eq_ok_iff, Except.pure_eq_ok_iff, readRow_eq_ok_iff, ih,
      List.forall_mem_cons, List.map_cons]
    constructor
    · rintro ⟨_, ⟨⟨hwf, rfl⟩, hclash, hlen⟩, rest, ⟨hrest, hwfs, hhead, hchain⟩, rfl⟩
      refine ⟨by rw [hrest], ⟨⟨hwf, by rwa [Row.length_ofTokens] at hlen⟩, hwfs⟩, ?_, ?_⟩
      · simpa using hclash
      · refine List.isChain_cons.mpr ⟨fun row hrow => ?_, hchain⟩
        exact clash?_spans_eq_none_iff.mp (hhead row hrow)
    · rintro ⟨rfl, ⟨⟨hwf, hlen⟩, hwfs⟩, hclash, hchain⟩
      obtain ⟨hhead, hchain⟩ := List.isChain_cons.mp hchain
      refine ⟨_, ⟨⟨hwf, rfl⟩, hclash _ rfl, by rwa [Row.length_ofTokens]⟩, _,
        ⟨rfl, hwfs, fun row hrow => ?_, hchain⟩, rfl⟩
      exact clash?_spans_eq_none_iff.mpr (hhead row hrow)

/-- The numbers of values that the rows below so many column sizes may have. -/
def Fits (columns n : ℕ) : Prop := n = columns + 1 ∨ (columns = 1 ∧ (n = 1 ∨ n = 2))

theorem bodyWidth_cons_eq_ok_iff {columns width : ℕ} {first : Text} {body : List Text}
    (hfirst : Row.WellFormed rules (Token.tokens first))
    (hwidth : (Token.tokens first).length = width) :
    bodyWidth rules columns (first :: body) = .ok width ↔ Fits columns width := by
  have hpos : 0 < width := by
    obtain ⟨size, hsize, -⟩ := hfirst.size
    rw [← hwidth]
    exact List.length_pos_of_mem (List.mem_of_mem_head? hsize)
  unfold bodyWidth Fits
  simp only
  split_ifs with h
  · have hread := (Row.readText_eq_ok_iff (n := 1)).mpr ⟨hfirst, rfl⟩
    rw [hread]
    show (if (Row.ofTokens rules (Token.tokens first)).length > 2 then _ else _) = _ ↔ _
    rw [Row.length_ofTokens, hwidth]
    split_ifs with hlong
    · simp only [false_iff]
      omega
    · simp only [true_iff]
      omega
  · rw [Except.ok.injEq]
    omega

theorem exists_bodyWidth_iff {columns : ℕ} {body : List Text}
    (hwf : ∀ line ∈ body, Row.WellFormed rules (Token.tokens line)) :
    (∃ width, bodyWidth rules columns body = .ok width ∧
      ∀ line ∈ body, (Token.tokens line).length = width) ↔
      ∃ n, Fits columns n ∧ ∀ line ∈ body, (Token.tokens line).length = n := by
  cases body with
  | nil =>
    have hfits : Fits columns (columns + 1) := Or.inl rfl
    exact ⟨fun _ => ⟨_, hfits, by simp⟩, fun _ => ⟨_, rfl, by simp⟩⟩
  | cons first body =>
    refine exists_congr fun n => and_congr_left fun hlen => ?_
    exact bodyWidth_cons_eq_ok_iff (hwf first (by simp)) (hlen first (by simp))

/-! ### The language -/

/-- The layout that the tokens of a header and of the rows below it spell. -/
def ofTokens (rules : Rules) (found : List (List Text)) : Layout :=
  ⟨(found.headD []).map ([·]), found.tail.map (Row.ofTokens rules)⟩

/-- **The language of layouts**, said of the tokens of each row. -/
structure InLanguage (rules : Rules) (found : List (List Text)) : Prop where
  /-- There is a row. -/
  nonempty : found ≠ []
  /-- Every row has a token. -/
  tokens : ∀ row ∈ found, row ≠ []
  /-- The header holds sizes. -/
  header : ∀ size ∈ found.headD [], Track.Size size
  /-- Every later row begins with a size. -/
  sizes : ∀ row ∈ found.tail, ∀ size ∈ row.head?, Track.Size size
  /-- The parts of an entry are distinct. -/
  distinct : ∀ row ∈ found.tail, ∀ entry ∈ row.tail, (Cell.parts rules entry).Nodup
  /-- All later rows have the same number of tokens, which fits the header. -/
  width : ∃ n, Fits (found.headD []).length n ∧ ∀ row ∈ found.tail, row.length = n
  /-- Every item of a row stands in one unbroken run of cells. -/
  unbroken : ∀ row ∈ found.tail, Row.Unbroken (row.tail.map (Cell.ofEntry rules))
  /-- Any two later rows, one below the other, agree. -/
  agree : (found.tail.map (Row.ofTokens rules)).IsChain Row.Agree

/-- Entries can be told apart into items: where there are any, the rules have a separator. -/
def Separable (rules : Rules) (found : List (List Text)) : Prop :=
  ∀ row ∈ found.tail, row.tail ≠ [] → rules.separator ≠ []

theorem InLanguage.wellFormed {found : List (List Text)} (h : InLanguage rules found)
    (hsep : Separable rules found) {row : List Text} (hrow : row ∈ found.tail) :
    Row.WellFormed rules row := by
  obtain ⟨size, entries, rfl⟩ :=
    List.exists_cons_of_ne_nil (h.tokens row (List.mem_of_mem_tail hrow))
  exact ⟨⟨size, rfl, h.sizes _ hrow size rfl⟩, hsep _ hrow, h.distinct _ hrow, h.unbroken _ hrow⟩

theorem inLanguage_cons_iff {header : List Text} {body : List (List Text)} :
    InLanguage rules (header :: body) ∧ Separable rules (header :: body) ↔
      (header ≠ [] ∧ ∀ size ∈ header, Track.Size size) ∧
        (∀ row ∈ body, Row.WellFormed rules row) ∧
        (∃ n, Fits header.length n ∧ ∀ row ∈ body, row.length = n) ∧
        (body.map (Row.ofTokens rules)).IsChain Row.Agree := by
  constructor
  · rintro ⟨h, hsep⟩
    exact ⟨⟨h.tokens header (by simp), h.header⟩, fun row hrow => h.wellFormed hsep hrow, h.width,
      h.agree⟩
  · rintro ⟨⟨hne, hheader⟩, hrows, hwidth, hagree⟩
    refine ⟨⟨List.cons_ne_nil _ _, ?_, hheader, ?_, fun row h => (hrows row h).distinct, hwidth,
      fun row h => (hrows row h).unbroken, hagree⟩, fun row h => (hrows row h).separator⟩
    · refine List.forall_mem_cons.mpr ⟨hne, ?_⟩
      rintro row hrow rfl
      obtain ⟨size, hs, -⟩ := (hrows [] hrow).size
      cases hs
    · intro row hrow size hs
      obtain ⟨size', hs', hsize⟩ := (hrows row hrow).size
      obtain rfl := Option.some.inj (hs'.symm.trans hs)
      exact hsize

/-! ### What is read -/

theorem read_cons_eq_ok_iff {first : Text} {body : List Text} {l : Layout} :
    read rules (first :: body) = .ok l ↔ ∃ width, readHeader first = .ok l.header ∧
      bodyWidth rules l.header.length body = .ok width ∧
        readBody rules width 1 [] body = .ok l.body := by
  simp only [read, Except.bind_eq_ok_iff, Except.mapError_eq_ok_iff, Except.pure_eq_ok_iff]
  constructor
  · rintro ⟨header, hheader, width, hwidth, rows, hrows, rfl⟩
    exact ⟨width, hheader, hwidth, hrows⟩
  · rintro ⟨width, hheader, hwidth, hrows⟩
    exact ⟨l.header, hheader, width, hwidth, l.body, hrows, rfl⟩

/-- Lines are refused for their header, for the row that tells the width, or for a row. -/
theorem read_cons_eq_error_iff {first : Text} {body : List Text} {f : Fault} :
    read rules (first :: body) = .error f ↔ (∃ d, readHeader first = .error d ∧ .defect d = f) ∨
      ∃ header, readHeader first = .ok header ∧
        (bodyWidth rules header.length body = .error f ∨
          ∃ width, bodyWidth rules header.length body = .ok width ∧
            readBody rules width 1 [] body = .error f) := by
  have hpure {l : Layout} : (pure l : Except Fault Layout) ≠ .error f := nofun
  simp only [read, Except.bind_eq_error_iff, Except.mapError_eq_error_iff,
    Except.mapError_eq_ok_iff, hpure, and_false, exists_false, or_false]

theorem length_of_readBody {width n : ℕ} {previous : ItemMap Span} {lines : List Text}
    {rows : List Row} (h : readBody rules width n previous lines = .ok rows) :
    rows.length = lines.length := by
  obtain ⟨rfl, -⟩ := readBody_eq_ok_iff.mp h
  rw [List.length_map]

theorem length_rows_of_read {lines : List Text} {l : Layout} (h : read rules lines = .ok l) :
    l.rows.length = lines.length := by
  cases lines with
  | nil => cases h
  | cons first body =>
    obtain ⟨_, -, -, hrows⟩ := read_cons_eq_ok_iff.mp h
    rw [rows, List.length_cons, List.length_cons, length_of_readBody hrows]

/-- **What is read, under any rules**: the language, where its entries can be told apart. -/
theorem read_eq_ok_iff_inLanguage {lines : List Text} {l : Layout} :
    read rules lines = .ok l ↔ (InLanguage rules (lines.map Token.tokens) ∧
      Separable rules (lines.map Token.tokens)) ∧ l = ofTokens rules (lines.map Token.tokens) := by
  cases lines with
  | nil =>
    simp only [read, reduceCtorEq, List.map_nil, false_iff, not_and, and_imp]
    exact fun h => absurd rfl h.nonempty
  | cons first body =>
    have hmap : body.map (fun line => Row.ofTokens rules (Token.tokens line)) =
        (body.map Token.tokens).map (Row.ofTokens rules) := by rw [List.map_map]; rfl
    obtain ⟨header, rows⟩ := l
    rw [read_cons_eq_ok_iff, List.map_cons, inLanguage_cons_iff]
    simp only [readHeader_eq_ok_iff, readBody_eq_ok_iff, hmap, List.forall_mem_map, ofTokens,
      List.headD_cons, List.tail_cons, mk.injEq]
    constructor
    · rintro ⟨width, ⟨hne, hheader, rfl⟩, hwidth, rfl, hrows, -, hagree⟩
      rw [List.length_map] at hwidth
      have hwf := fun line hline => (hrows line hline).1
      have hlen := fun line hline => (hrows line hline).2
      have hfits := (exists_bodyWidth_iff hwf).mp ⟨width, hwidth, hlen⟩
      exact ⟨⟨⟨hne, hheader⟩, hwf, hfits, hagree⟩, rfl, rfl⟩
    · rintro ⟨⟨⟨hne, hheader⟩, hwf, hfits, hagree⟩, rfl, rfl⟩
      obtain ⟨width, hwidth, hlen⟩ := (exists_bodyWidth_iff hwf).mpr hfits
      rw [List.length_map]
      exact ⟨width, ⟨hne, hheader, rfl⟩, hwidth, rfl,
        fun line hline => ⟨hwf line hline, hlen line hline⟩, fun _ _ => clash?_nil _, hagree⟩

/-- **A layout that can be read**, said without the lines that spell it. -/
structure Valid (rules : Rules) (l : Layout) : Prop where
  nonempty : l.header ≠ []
  header : ∀ cell ∈ l.header, ∃ size, Track.Size size ∧ cell = [size]
  rows : ∀ row ∈ l.body, row.Valid rules
  width : ∃ n, Fits l.header.length n ∧ ∀ row ∈ l.body, row.length = n
  agree : l.body.IsChain Row.Agree

/-- **Reading asks nothing of lines but the layout that they spell.** -/
theorem read_eq_ok_iff_valid {lines : List Text} {l : Layout} :
    read rules lines = .ok l ↔
      l.Valid rules ∧ ofTokens rules (lines.map Token.tokens) = l := by
  rw [read_eq_ok_iff_inLanguage, eq_comm (a := l)]
  refine and_congr_left ?_
  rintro rfl
  cases lines with
  | nil => exact ⟨fun h => absurd rfl h.1.nonempty, fun h => absurd rfl h.nonempty⟩
  | cons first body =>
    rw [List.map_cons, inLanguage_cons_iff]
    constructor
    · rintro ⟨⟨hne, hheader⟩, hrows, ⟨n, hfits, hlen⟩, hagree⟩
      refine ⟨by simpa [ofTokens] using hne, ?_, ?_, ⟨n, ?_, ?_⟩, hagree⟩
      · exact List.forall_mem_map.mpr fun size hsize => ⟨size, hheader size hsize, rfl⟩
      · exact List.forall_mem_map.mpr fun row hrow => Row.wellFormed_iff_valid.mp (hrows row hrow)
      · simpa [ofTokens] using hfits
      · refine List.forall_mem_map.mpr fun row hrow => ?_
        rw [Row.length_ofTokens, hlen row hrow]
    · rintro ⟨hne, hheader, hrows, ⟨n, hfits, hlen⟩, hagree⟩
      refine ⟨⟨by simpa [ofTokens] using hne, fun size hsize => ?_⟩, ?_, ⟨n, ?_, ?_⟩, hagree⟩
      · obtain ⟨size', hsize', he⟩ := hheader [size] (List.mem_map_of_mem hsize)
        exact (List.cons.inj he).1 ▸ hsize'
      · exact fun row hrow => Row.wellFormed_iff_valid.mpr (hrows _ (List.mem_map_of_mem hrow))
      · simpa [ofTokens] using hfits
      · intro row hrow
        rw [← Row.length_ofTokens rules]
        exact hlen _ (List.mem_map_of_mem hrow)

theorem exists_entry_of_read {lines : List Text} {l : Layout} (h : read rules lines = .ok l)
    {row : Row} (hrow : row ∈ l.body) {cell : Cell} (hcell : cell ∈ row.cells) :
    ∃ line ∈ lines, ∃ entry ∈ Token.tokens line, cell = Cell.ofEntry rules entry := by
  obtain ⟨-, rfl⟩ := read_eq_ok_iff_inLanguage.mp h
  obtain ⟨found, hfound, rfl⟩ := List.mem_map.mp hrow
  obtain ⟨line, hline, rfl⟩ := List.mem_map.mp (List.mem_of_mem_tail hfound)
  refine ⟨line, hline, ?_⟩
  cases htokens : Token.tokens line with
  | nil =>
    rw [htokens] at hcell
    cases hcell
  | cons size entries =>
    rw [htokens] at hcell
    obtain ⟨entry, hentry, rfl⟩ := List.mem_map.mp hcell
    exact ⟨entry, List.mem_cons_of_mem size hentry, rfl⟩

/-- What reading leaves behind: rows that were read, each agreeing with the one above it. -/
structure Regular (l : Layout) : Prop where
  rows : ∀ row ∈ l.body, row.Regular
  agree : l.body.IsChain Row.Agree

theorem regular_of_read {lines : List Text} {l : Layout} (h : read rules lines = .ok l) :
    l.Regular := by
  obtain ⟨hvalid, -⟩ := read_eq_ok_iff_valid.mp h
  exact ⟨fun row hrow => (hvalid.rows row hrow).toRegular, hvalid.agree⟩

theorem Regular.agree_getElem? {l : Layout} (h : l.Regular) {i : ℕ} {above below : Row}
    (ha : l.body[i]? = some above) (hb : l.body[i + 1]? = some below) : Row.Agree above below := by
  obtain ⟨hi, rfl⟩ := List.getElem?_eq_some_iff.mp hb
  obtain ⟨-, rfl⟩ := List.getElem?_eq_some_iff.mp ha
  exact List.isChain_iff_getElem.mp h.agree i hi

/-- **Exactly the language of layouts is read**, each list of lines as the layout that its tokens
spell: the header sizes each alone in its cell, and of every later row the size and then the parts
of each entry, or no item for a lone marker. -/
theorem reads_exactly_the_language (h : rules.separator ≠ []) {lines : List Text} {l : Layout} :
    read rules lines = .ok l ↔ InLanguage rules (lines.map Token.tokens) ∧
      l = ofTokens rules (lines.map Token.tokens) := by
  have hsep : Separable rules (lines.map Token.tokens) := fun _ _ _ => h
  rw [read_eq_ok_iff_inLanguage, and_iff_left hsep]

/-- The lines `100px minmax(1px, 2fr)`, `1fr A A,B`, `auto .. B`. -/
theorem badge_in_language :
    ({} : Rules).separator ≠ [] ∧
      InLanguage {} (["100px minmax(1px, 2fr)".toList, "1fr A A,B".toList, "auto .. B".toList].map
        Token.tokens) ∧
      ofTokens {} (["100px minmax(1px, 2fr)".toList, "1fr A A,B".toList, "auto .. B".toList].map
        Token.tokens) =
        ⟨[["100px".toList], ["minmax(1px, 2fr)".toList]],
          [[["1fr".toList], [['A']], [['A'], ['B']]], [["auto".toList], [], [['B']]]]⟩ := by
  have hsep : ({} : Rules).separator ≠ [] := by decide
  have hread : read {} ["100px minmax(1px, 2fr)".toList, "1fr A A,B".toList, "auto .. B".toList] =
      .ok ⟨[["100px".toList], ["minmax(1px, 2fr)".toList]],
        [[["1fr".toList], [['A']], [['A'], ['B']]], [["auto".toList], [], [['B']]]]⟩ := by
    decide +kernel
  obtain ⟨hlang, hl⟩ := (reads_exactly_the_language hsep).mp hread
  exact ⟨hsep, hlang, hl.symm⟩

end Layout

end GridText
