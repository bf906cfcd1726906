import GridText.Proofs.Layout.Clashes
import GridText.Proofs.Row.Flaws

/-! # Reading a layout: what a defect says of the lines

A defect carries texts, rows, columns and spans. `Defect.TrueOf` says what they mean: which token of
which line is refused, where the item stands that is repeated or comes back, how many tokens a line
has and how many it should have. Nothing in it speaks of how far the reading went.

* `Row.readText_eq_error`: the faults of one line of the body.
* `every_defect_is_in_the_lines`: lines are read, or refused for a defect that they have. -/

namespace GridText

open Text (Blank)
open Token (tokens)

variable {rules : Rules}

/-! ### The meaning of a defect -/

/-- The item stands in the cell behind this one, not in this one, but in some cell in front of it. -/
def Row.ComesBack (cells : List Cell) (item : Text) (p : ℕ) : Prop :=
  At cells item (p + 1) ∧ ¬ At cells item p ∧ ∃ q < p, At cells item q

namespace Layout

/-- The tokens of a line, which has none if there is no such line. -/
def tokensAt (lines : List Text) (n : ℕ) : List Text := tokens (lines.getD n [])

/-- The tokens that have to be sizes: those of the header, and the first of every later line. -/
def sizeTokens (lines : List Text) : List Text :=
  tokensAt lines 0 ++ lines.tail.filterMap fun line => (tokens line).head?

/-- The item cells that the tokens of a line spell. -/
def cellsAt (rules : Rules) (lines : List Text) (n : ℕ) : List Cell :=
  (tokensAt lines n).tail.map (Cell.ofEntry rules)

/-- The span of a value among the values that the tokens of a line spell. -/
def spanAt (rules : Rules) (lines : List Text) (n : ℕ) (item : Text) : Option Span :=
  (Row.ofTokens rules (tokensAt lines n)).spans.find? item

/-- The number of tokens that every line of the body should have. -/
def expectedWidth (lines : List Text) : ℕ :=
  if (tokensAt lines 0).length = 1 ∧ (tokensAt lines 1).length = 1 then 1
  else (tokensAt lines 0).length + 1

end Layout

namespace Defect

open Layout

/-- **What a defect says of the lines.** The token of column `0` is the size of a line, so that the
cell at position `p` is the token of column `p + 1`. -/
def TrueOf (rules : Rules) (lines : List Text) : Defect → Prop
  | emptyInput => lines = []
  | emptyRow _ => False
  | malformedRow text => text ∈ lines ∧ Blank text
  | ambiguousSingleColumn row actual =>
    row = 1 ∧ (tokensAt lines 0).length = 1 ∧ actual = (tokensAt lines 1).length ∧ 3 ≤ actual
  | rowSizeMismatch row actual expected => ∃ n : ℕ, row = n ∧ 1 ≤ n ∧ n < lines.length ∧
    actual = (tokensAt lines n).length ∧ expected = expectedWidth lines ∧ actual ≠ expected
  | invalidTrackSize text =>
    text ∈ sizeTokens lines ∧ Track.classify text = .error (invalidTrackSize text)
  | invalidMinmax text => text ∈ sizeTokens lines ∧ Track.classify text = .error (invalidMinmax text)
  | invalidFitContent text =>
    text ∈ sizeTokens lines ∧ Track.classify text = .error (invalidFitContent text)
  | duplicateItem item row column => ∃ n c : ℕ, row = n ∧ column = c ∧ 1 ≤ n ∧ 1 ≤ c ∧
    ∃ entry, (tokensAt lines n)[c]? = some entry ∧ 2 ≤ (Cell.parts rules entry).count item
  | nonContiguousItem item row column => ∃ n p : ℕ, row = n ∧ column = (p + 2 : ℕ) ∧ 1 ≤ n ∧
    Row.ComesBack (cellsAt rules lines n) item p
  | nonRectangularSpan item row previous current => ∃ n : ℕ, row = n ∧ 2 ≤ n ∧ n < lines.length ∧
    spanAt rules lines (n - 1) item = some previous ∧ spanAt rules lines n item = some current ∧
      previous ≠ current

/-- What a defect says of one line of the body, with its number. -/
inductive OfLine (rules : Rules) (n : ℕ) (line : Text) : Defect → Prop
  | blank : Blank line → OfLine rules n line (malformedRow line)
  | size {text : Text} {d : Defect} : text ∈ (tokens line).head? →
      Track.classify text = .error d → OfLine rules n line d
  | duplicate {item entry : Text} {p : ℕ} : (tokens line)[p + 1]? = some entry →
      2 ≤ (Cell.parts rules entry).count item →
      OfLine rules n line (duplicateItem item n (p + 1 : ℕ))
  | resumes {item : Text} {p : ℕ} :
      Row.ComesBack ((tokens line).tail.map (Cell.ofEntry rules)) item p →
      OfLine rules n line (nonContiguousItem item n (p + 2 : ℕ))

theorem trueOf_of_classify {lines : List Text} {text : Text} {d : Defect}
    (hmem : text ∈ sizeTokens lines) (h : Track.classify text = .error d) : d.TrueOf rules lines := by
  rcases Track.classify_eq_error h with rfl | rfl | rfl <;> exact ⟨hmem, h⟩

theorem tokensAt_of_getElem? {lines : List Text} {n : ℕ} {line : Text} (h : lines[n]? = some line) :
    tokensAt lines n = tokens line := by
  rw [tokensAt, List.getD_eq_getElem?_getD, h, Option.getD_some]

theorem mem_sizeTokens {lines : List Text} {n : ℕ} {line text : Text}
    (h : lines[n + 1]? = some line) (htext : text ∈ (tokens line).head?) :
    text ∈ sizeTokens lines := by
  refine List.mem_append_right _ (List.mem_filterMap.mpr ⟨line, ?_, htext⟩)
  rw [← List.getElem?_tail] at h
  exact List.mem_of_getElem? h

theorem OfLine.trueOf {lines : List Text} {n : ℕ} {line : Text} {d : Defect}
    (h : d.OfLine rules (n + 1) line) (hline : lines[n + 1]? = some line) :
    d.TrueOf rules lines := by
  have htokens := tokensAt_of_getElem? hline
  cases h with
  | blank hblank => exact ⟨List.mem_of_getElem? hline, hblank⟩
  | size htext hd => exact trueOf_of_classify (mem_sizeTokens hline htext) hd
  | @duplicate item entry p hentry hcount =>
    exact ⟨n + 1, p + 1, rfl, rfl, Nat.le_add_left 1 n, Nat.le_add_left 1 p, entry,
      by rw [htokens]; exact hentry, hcount⟩
  | @resumes item p hback =>
    refine ⟨n + 1, p, rfl, rfl, Nat.le_add_left 1 n, ?_⟩
    rw [cellsAt, htokens]
    exact hback

end Defect

/-! ### The faults of one line -/

namespace Row

theorem Returns.comesBack {cells : List Cell} {item : Text} {p : ℕ} (h : Returns cells p item)
    (hat : At cells item p) : ∃ q, p = q + 1 ∧ ComesBack cells item q := by
  obtain ⟨⟨i, hi, hleft⟩, hout⟩ := h
  obtain ⟨q, rfl⟩ := Nat.exists_eq_add_one.mpr (Nat.zero_lt_of_lt hi)
  have hne : i ≠ q := by
    rintro rfl
    exact hout hleft
  exact ⟨q, rfl, hat, hout, i, by omega, hleft⟩

theorem readCells_eq_error (hsep : rules.separator ≠ []) {n : Int} {entries : List Text} {f : Fault}
    (h : readCells rules n [] entries = .error f) :
    (∃ item p entry, f = .defect (.duplicateItem item n (p + 1 : ℕ)) ∧
      entries[p]? = some entry ∧ 2 ≤ (Cell.parts rules entry).count item) ∨
    ∃ item p, f = .defect (.nonContiguousItem item n (p + 2 : ℕ)) ∧
      ComesBack (entries.map (Cell.ofEntry rules)) item p := by
  obtain ⟨p, d, -, -, hd, rfl⟩ := (readCells_eq_error_iff hsep).mp h
  rw [List.nil_append] at hd
  cases hd with
  | @duplicate front back item hcell _ hitem =>
    rw [List.getElem?_map] at hcell
    obtain ⟨entry, hentry, hcell⟩ := Option.map_eq_some_iff.mp hcell
    refine Or.inl ⟨item, p, entry, rfl, hentry, ?_⟩
    -- the entry is no lone marker, for its cell has items
    have hparts : Cell.parts rules entry = front ++ item :: back := by
      unfold Cell.ofEntry Cell.ofParts at hcell
      split_ifs at hcell
      · simp at hcell
      · exact hcell
    have hfront := List.count_pos_iff.mpr hitem
    rw [hparts, List.count_append, List.count_cons_self]
    omega
  | @returns front back item hcell _ hreturns _ =>
    obtain ⟨q, rfl, hback⟩ := hreturns.comesBack ⟨_, hcell, by simp⟩
    exact Or.inr ⟨item, q, rfl, hback⟩

/-- **A line of the body is refused** for a defect that it has. -/
theorem readText_eq_error (hsep : rules.separator ≠ []) {n : ℕ} {line : Text} {f : Fault}
    (h : readText rules n line = .error f) : ∃ d, f = .defect d ∧ d.OfLine rules n line := by
  rcases Except.bind_eq_error_iff.mp h with h | ⟨found, hfound, h⟩
  · obtain ⟨d, hd, rfl⟩ := Except.mapError_eq_error_iff.mp h
    obtain ⟨rfl, hblank⟩ := scan_eq_error hd
    exact ⟨_, rfl, .blank hblank⟩
  obtain ⟨hne, htokens⟩ := scan_eq_ok_iff.mp (Except.mapError_eq_ok_iff.mp hfound)
  obtain ⟨size, entries, rfl⟩ := List.exists_cons_of_ne_nil hne
  rcases Except.bind_eq_error_iff.mp h with h | ⟨_, -, h⟩
  · obtain ⟨d, hd, rfl⟩ := Except.mapError_eq_error_iff.mp h
    exact ⟨d, rfl, .size (by rw [htokens]; rfl) hd⟩
  rcases Except.bind_eq_error_iff.mp h with h | ⟨_, -, h⟩
  · rcases readCells_eq_error hsep h with
      ⟨item, p, entry, rfl, hentry, hcount⟩ | ⟨item, p, rfl, hback⟩
    · exact ⟨_, rfl, .duplicate (by rw [htokens]; exact hentry) hcount⟩
    · exact ⟨_, rfl, .resumes (by rw [htokens]; exact hback)⟩
  · cases h

end Row

/-! ### The faults of all lines -/

namespace Layout

theorem trueOf_of_readHeader {first : Text} {body : List Text} {d : Defect}
    (h : readHeader first = .error d) : d.TrueOf rules (first :: body) := by
  rcases Except.bind_eq_error_iff.mp h with h | ⟨found, hfound, h⟩
  · obtain ⟨rfl, hblank⟩ := Row.scan_eq_error h
    exact ⟨List.mem_cons_self, hblank⟩
  · obtain ⟨-, rfl⟩ := Row.scan_eq_ok_iff.mp hfound
    obtain ⟨text, htext, hd⟩ := headerOfTokens_eq_error h
    exact Defect.trueOf_of_classify (List.mem_append_left _ htext) hd

theorem bodyWidth_eq_error (hsep : rules.separator ≠ []) {first : Text} {body : List Text}
    {f : Fault} (h : bodyWidth rules (tokens first).length body = .error f) :
    ∃ d, f = .defect d ∧ d.TrueOf rules (first :: body) := by
  cases body with
  | nil => cases h
  | cons line body =>
    unfold bodyWidth at h
    simp only at h
    split_ifs at h with hone
    rcases Except.bind_eq_error_iff.mp h with h | ⟨row, hrow, h⟩
    · obtain ⟨d, rfl, hd⟩ := Row.readText_eq_error (n := 1) hsep h
      exact ⟨d, rfl, hd.trueOf rfl⟩
    · split_ifs at h with hlong
      obtain rfl := Except.error.inj h
      obtain ⟨-, rfl⟩ := Row.readText_eq_ok_iff.mp hrow
      rw [Row.length_ofTokens] at hlong ⊢
      refine ⟨_, rfl, rfl, hone, rfl, ?_⟩
      exact_mod_cast hlong

theorem bodyWidth_eq_expectedWidth {first : Text} {body : List Text} {width : ℕ} (hne : body ≠ [])
    (h : bodyWidth rules (tokens first).length body = .ok width) :
    width = expectedWidth (first :: body) := by
  obtain ⟨line, body, rfl⟩ := List.exists_cons_of_ne_nil hne
  show width = if (tokens first).length = 1 ∧ (tokens line).length = 1 then 1
    else (tokens first).length + 1
  unfold bodyWidth at h
  simp only at h
  split_ifs at h with hone
  · obtain ⟨row, hrow, h⟩ := Except.bind_eq_ok_iff.mp h
    obtain ⟨hwf, rfl⟩ := Row.readText_eq_ok_iff.mp hrow
    obtain ⟨size, hsize, -⟩ := hwf.size
    have hpos := List.length_pos_of_mem (List.mem_of_mem_head? hsize)
    rw [Row.length_ofTokens] at h
    split_ifs at h with hlong
    obtain rfl := Except.ok.inj h
    split_ifs <;> omega
  · obtain rfl := Except.ok.inj h
    rw [if_neg fun hboth => hone hboth.1]

/-- **A line is refused below others that were read** for a defect of the line, for a value with
another span than on the line above, or for its number of tokens. -/
theorem readRow_eq_error (hsep : rules.separator ≠ []) {width n : ℕ} {previous : ItemMap Span}
    {line : Text} {f : Fault} (h : readRow rules width n previous line = .error f) :
    (∃ d, f = .defect d ∧ d.OfLine rules n line) ∨
    (∃ item before span, f = .defect (.nonRectangularSpan item n before span) ∧
      previous.find? item = some before ∧
      (Row.ofTokens rules (tokens line)).spans.find? item = some span ∧ before ≠ span) ∨
    (f = .defect (.rowSizeMismatch n (tokens line).length width) ∧
      (tokens line).length ≠ width) := by
  unfold readRow at h
  rcases Except.bind_eq_error_iff.mp h with h | ⟨row, hrow, h⟩
  · exact Or.inl (Row.readText_eq_error hsep h)
  obtain ⟨-, rfl⟩ := Row.readText_eq_ok_iff.mp hrow
  cases hclash : clash? previous (Row.ofTokens rules (tokens line)).spans with
  | some clash =>
    obtain ⟨item, before, span⟩ := clash
    simp only [hclash] at h
    obtain rfl := Except.error.inj h
    exact Or.inr (Or.inl ⟨item, before, span, rfl,
      find?_of_clash? (Row.nodup_items_spans _) hclash⟩)
  | none =>
    simp only [hclash] at h
    split_ifs at h with hlen
    obtain rfl := Except.error.inj h
    rw [Row.length_ofTokens] at hlen ⊢
    exact Or.inr (Or.inr ⟨rfl, hlen⟩)

theorem spanAt_of_lastSpans (first line : Text) (after : List Text) {front : List Text}
    {item : Text} {before : Span}
    (h : (lastSpans [] (front.map fun above => Row.ofTokens rules (tokens above))).find? item =
      some before) :
    front ≠ [] ∧ spanAt rules (first :: (front ++ line :: after)) front.length item =
      some before := by
  rcases List.eq_nil_or_concat front with rfl | ⟨others, above, rfl⟩
  · cases h
  · rw [List.concat_eq_append] at h ⊢
    refine ⟨by simp, ?_⟩
    have hline : (first :: (others ++ [above] ++ line :: after))[(others ++ [above]).length]? =
        some above := by simp
    rw [spanAt, Defect.tokensAt_of_getElem? hline]
    simpa [lastSpans] using h

theorem read_eq_error (hsep : rules.separator ≠ []) {lines : List Text} {f : Fault}
    (h : read rules lines = .error f) : ∃ d, f = .defect d ∧ d.TrueOf rules lines := by
  cases lines with
  | nil =>
    obtain rfl := Except.error.inj h
    exact ⟨.emptyInput, rfl, rfl⟩
  | cons first body =>
    rcases read_cons_eq_error_iff.mp h with ⟨d, hd, rfl⟩ | ⟨header, hheader, h⟩
    · exact ⟨d, rfl, trueOf_of_readHeader hd⟩
    obtain ⟨-, -, rfl⟩ := readHeader_eq_ok_iff.mp hheader
    rw [List.length_map] at h
    rcases h with h | ⟨width, hwidth, h⟩
    · exact bodyWidth_eq_error hsep h
    · obtain ⟨front, line, after, rows, rfl, hrows, hline⟩ := readBody_eq_error_iff.mp h
      obtain ⟨rfl, -⟩ := readBody_eq_ok_iff.mp hrows
      rw [Nat.add_comm] at hline
      have hget : (first :: (front ++ line :: after))[front.length + 1]? = some line := by simp
      have htokens := Defect.tokensAt_of_getElem? hget
      rcases readRow_eq_error hsep hline with ⟨d, rfl, hd⟩ |
        ⟨item, before, span, rfl, hbefore, hspan, hne⟩ | ⟨rfl, hlen⟩
      · exact ⟨d, rfl, hd.trueOf hget⟩
      · obtain ⟨hfront, habove⟩ := spanAt_of_lastSpans first line after hbefore
        have hpos := List.length_pos_iff.mpr hfront
        refine ⟨_, rfl, front.length + 1, rfl, by omega, by simp, habove, ?_, hne⟩
        rw [spanAt, htokens]
        exact hspan
      · have hexpected := bodyWidth_eq_expectedWidth (by simp) hwidth
        refine ⟨_, rfl, front.length + 1, rfl, by omega, by simp, by rw [htokens],
          by rw [hexpected], ?_⟩
        exact_mod_cast hlen

/-- **Every defect is in the lines.** Under rules with a separator, lines are read or refused for a
defect that is true of them, and they are refused as empty exactly when there are none. -/
theorem every_defect_is_in_the_lines (hsep : rules.separator ≠ []) (lines : List Text) :
    ((∃ l, read rules lines = .ok l) ∨
      ∃ d, read rules lines = .error (.defect d) ∧ d.TrueOf rules lines) ∧
    (read rules lines = .error (.defect .emptyInput) ↔ lines = []) := by
  constructor
  · cases h : read rules lines with
    | ok l => exact Or.inl ⟨l, rfl⟩
    | error f =>
      obtain ⟨d, rfl, hd⟩ := read_eq_error hsep h
      exact Or.inr ⟨d, rfl, hd⟩
  · constructor
    · intro h
      obtain ⟨d, he, hd⟩ := read_eq_error hsep h
      obtain rfl := Fault.defect.inj he
      exact hd
    · rintro rfl
      rfl

/-- `A` comes back in the third cell of the second row of the body. -/
theorem item_that_comes_back : ({} : Rules).separator ≠ [] ∧
    read {} ["1fr 1fr 1fr".toList, "1fr A A A".toList, "1fr A .. A".toList] =
      .error (.defect (.nonContiguousItem ['A'] 2 3)) ∧
    Defect.TrueOf {} ["1fr 1fr 1fr".toList, "1fr A A A".toList, "1fr A .. A".toList]
      (.nonContiguousItem ['A'] 2 3) := by
  have hsep : ({} : Rules).separator ≠ [] := by decide
  have hread : read {} ["1fr 1fr 1fr".toList, "1fr A A A".toList, "1fr A .. A".toList] =
      .error (.defect (.nonContiguousItem ['A'] 2 3)) := by decide +kernel
  refine ⟨hsep, hread, ?_⟩
  rcases (every_defect_is_in_the_lines hsep _).1 with ⟨l, hl⟩ | ⟨d, hd, htrue⟩
  · rw [hread] at hl
    cases hl
  · rw [hread] at hd
    obtain rfl := Fault.defect.inj (Except.error.inj hd)
    exact htrue

end Layout

end GridText
