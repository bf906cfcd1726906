import GridText.Proofs.Layout.Writing
import Mathlib.Algebra.BigOperators.Group.Finset.Basic
import Mathlib.Data.Finset.Lattice.Fold
import Mathlib.Order.Lattice.Nat

/-! # Writing a layout: its columns

Where a text stands on its line is a matter of its column alone. The columns are numbered through
the table that is written, in which a column of sizes moves the header to the right.

* `Layout.firstColumn`, `Layout.textAt`: the column of the first text of a row, and the text of a
  column.
* `Layout.width`, `Layout.start`: the longest text of a column, and where the column begins.
* `Text.Placed`: a line that has its texts at given places, and spaces everywhere else.
* `columns_are_aligned`: the lines of a layout that was read. -/

namespace GridText

open Text (spaces padRight joinWith)

variable {rules : Rules}

/-! ### Texts at their places -/

namespace Text

/-- **A line with texts at given places**, from some offset on. -/
structure Placed (start : ℕ) (place : ℕ → ℕ) (texts : List Text) (s : Text) : Prop where
  /-- Each text stands at its place. -/
  text : ∀ i text, texts[i]? = some text → (s.drop (place i)).take text.length = text
  /-- Between two texts there is room for two characters. -/
  apart : ∀ i text next, texts[i]? = some text → texts[i + 1]? = some next →
    place i + text.length + 2 ≤ place (i + 1)
  /-- What is in no text is a space. -/
  rest : ∀ n, start ≤ n → n < s.length →
    (∀ i text, texts[i]? = some text → n < place i ∨ place i + text.length ≤ n) →
    s[n]? = some ' '
  /-- The line ends where the last text ends. -/
  ends : ∀ i text, texts[i]? = some text → texts.length = i + 1 →
    s.length = place i + text.length

variable {place : ℕ → ℕ} {texts : List Text} {text line : Text}

theorem Placed.singleton {front : Text} (hfront : front.length = place 0) (text : Text) :
    Placed (place 0) place [text] (front ++ text) := by
  have hfound : ∀ i found, [text][i]? = some found → i = 0 ∧ found = text := by
    intro i found hi
    cases i with
    | zero => exact ⟨rfl, (Option.some.inj hi).symm⟩
    | succ i => cases hi
  refine ⟨fun i found hi => ?_, fun i _ next _ hnext => ?_, fun n hn hlen hout => ?_,
    fun i found hi _ => ?_⟩
  · obtain ⟨rfl, rfl⟩ := hfound i found hi
    rw [← hfront, List.drop_left, List.take_length]
  · cases hnext
  · have hfirst := hout 0 text rfl
    rw [List.length_append] at hlen
    omega
  · obtain ⟨rfl, rfl⟩ := hfound i found hi
    rw [List.length_append, hfront]

/-- One text more in front, with two spaces or more up to the next place. -/
theorem Placed.cons {front rest : Text} {gap : ℕ}
    (h : Placed (place 1) (fun i => place (i + 1)) texts (front ++ (text ++ spaces gap) ++ rest))
    (hne : texts ≠ []) (hfront : front.length = place 0)
    (hnext : place 0 + text.length + gap = place 1) (hgap : 2 ≤ gap) :
    Placed (place 0) place (text :: texts) (front ++ (text ++ spaces gap) ++ rest) := by
  have htext :
      ((front ++ (text ++ spaces gap) ++ rest).drop (place 0)).take text.length = text := by
    rw [← hfront, List.append_assoc, List.drop_left, List.append_assoc, List.take_left]
  have hspaces : ∀ n, place 0 + text.length ≤ n → n < place 1 →
      (front ++ (text ++ spaces gap) ++ rest)[n]? = some ' ' := by
    intro n hn hlt
    have hlen : (text ++ spaces gap).length = text.length + gap := by
      rw [List.length_append, length_spaces]
    rw [List.getElem?_append_left (by rw [List.length_append]; omega),
      List.getElem?_append_right (by omega), List.getElem?_append_right (by omega)]
    exact List.getElem?_replicate_of_lt (by omega)
  refine ⟨fun i found hi => ?_, fun i found next hi hnext => ?_, fun n hn hlen hout => ?_,
    fun i found hi hlast => ?_⟩
  · cases i with
    | zero =>
      obtain rfl := Option.some.inj hi
      exact htext
    | succ i => exact h.text i found hi
  · cases i with
    | zero =>
      obtain rfl := Option.some.inj hi
      show place 0 + text.length + 2 ≤ place 1
      omega
    | succ i => exact h.apart i found next hi hnext
  · rcases Nat.lt_or_ge n (place 1) with hbefore | hbehind
    · have hfirst := hout 0 text rfl
      exact hspaces n (by omega) hbefore
    · exact h.rest n hbehind hlen fun i found hi => hout (i + 1) found hi
  · cases i with
    | zero => exact absurd (List.length_eq_zero_iff.mp (Nat.succ.inj hlast)) hne
    | succ i => exact h.ends i found hi (Nat.succ.inj hlast)

theorem Placed.of_replicate {k : ℕ} (h : Placed 0 place (List.replicate k [] ++ texts) line) :
    Placed 0 (fun i => place (k + i)) texts line := by
  have hat (i : ℕ) : (List.replicate k [] ++ texts)[k + i]? = texts[i]? := by
    rw [List.getElem?_append_right (by simp), List.length_replicate, Nat.add_sub_cancel_left]
  refine ⟨fun i found hi => ?_, fun i found next hi hnext => ?_, fun n hn hlen hout => ?_,
    fun i found hi hlast => ?_⟩
  · exact h.text (k + i) found ((hat i).trans hi)
  · exact h.apart (k + i) found next ((hat i).trans hi) ((hat (i + 1)).trans hnext)
  · refine h.rest n hn hlen fun i found hi => ?_
    rcases Nat.lt_or_ge i k with hlt | hge
    · rw [List.getElem?_append_left (by simpa using hlt), List.getElem?_replicate_of_lt hlt] at hi
      obtain rfl := Option.some.inj hi
      rw [List.length_nil]
      omega
    · obtain ⟨i, rfl⟩ := Nat.exists_eq_add_of_le hge
      exact hout i found ((hat i).symm.trans hi)
  · refine h.ends (k + i) found ((hat i).trans hi) ?_
    rw [List.length_append, List.length_replicate, hlast]
    omega

end Text

/-! ### Lines -/

namespace Row

open Text (Placed EndsInInk)

/-- Where a column begins, behind columns of some widths with two spaces behind each. -/
def columnStart (width : ℕ → ℕ) (column : ℕ) : ℕ := ∑ j ∈ Finset.range column, (width j + 2)

theorem columnStart_succ (width : ℕ → ℕ) (column : ℕ) :
    columnStart width (column + 1) = columnStart width column + (width column + 2) :=
  Finset.sum_range_succ _ _

/-- The texts of a line from some column on, padded to the widths of their columns. -/
def padded (width : ℕ → ℕ) (k : ℕ) (texts : List Text) : List Text :=
  (texts.zipIdx k).map fun (text, column) => padRight (width column) text

theorem padded_cons (width : ℕ → ℕ) (k : ℕ) (text : Text) (texts : List Text) :
    padded width k (text :: texts) = padRight (width k) text :: padded width (k + 1) texts := rfl

/-- **Padded texts stand at the starts of their columns**, behind a front that reaches up to the
first one. -/
theorem placed_joinWith {width : ℕ → ℕ} {texts : List Text} (hne : texts ≠ []) {k : ℕ}
    (hroom : ∀ i text, texts[i]? = some text → text.length ≤ width (k + i))
    (hink : ∀ text ∈ texts.getLast?, EndsInInk text) {front : Text}
    (hfront : front.length = columnStart width k) :
    ∃ body gap, joinWith [' ', ' '] (padded width k texts) = body ++ spaces gap ∧
      EndsInInk body ∧
      Placed (columnStart width k) (fun i => columnStart width (k + i)) texts (front ++ body) := by
  induction texts generalizing k front with
  | nil => exact absurd rfl hne
  | cons text texts ih =>
    have hlen : text.length ≤ width k := hroom 0 text rfl
    cases texts with
    | nil =>
      have hplaced := @Text.Placed.singleton (fun i => columnStart width (k + i)) front hfront text
      exact ⟨text, width k - text.length, Text.joinWith_singleton _ _, hink text rfl, hplaced⟩
    | cons second texts =>
      have hnext := columnStart_succ width k
      have hplace : (fun i => columnStart width (k + 1 + i)) =
          fun i => columnStart width (k + (i + 1)) := by
        funext i
        rw [Nat.add_right_comm, Nat.add_assoc]
      have hroom' : ∀ i found, (second :: texts)[i]? = some found →
          found.length ≤ width (k + 1 + i) := by
        intro i found hi
        rw [Nat.add_right_comm]
        exact hroom (i + 1) found hi
      -- behind the first text stand its padding and the two spaces between the columns
      obtain ⟨gap, hgap⟩ : ∃ gap, gap = width k - text.length + 2 := ⟨_, rfl⟩
      have hpiece (rest : Text) :
          padRight (width k) text ++ [' ', ' '] ++ rest = text ++ spaces gap ++ rest := by
        rw [hgap, padRight, spaces, spaces, List.replicate_add, ← List.append_assoc]
        rfl
      have hreach : (front ++ (text ++ spaces gap)).length = columnStart width (k + 1) := by
        rw [List.length_append, List.length_append, Text.length_spaces, hfront, hnext]
        omega
      obtain ⟨body, back, hbody, hends, hplaced⟩ :=
        ih (List.cons_ne_nil second texts) hroom' hink hreach
      refine ⟨text ++ spaces gap ++ body, back, ?_, hends.append _, ?_⟩
      · rw [padded_cons, padded_cons, Text.joinWith_cons_cons, ← padded_cons, hbody, hpiece]
        simp only [List.append_assoc]
      · rw [hplace] at hplaced
        have hcolumn : columnStart width k + text.length + gap = columnStart width (k + 1) := by
          omega
        have hcons := @Text.Placed.cons (fun i => columnStart width (k + i)) _ _ _ _ _ hplaced
          (List.cons_ne_nil second texts) hfront hcolumn (by omega)
        rwa [List.append_assoc] at hcons

/-! ### Tables -/

theorem columnWidth_le_iff {table : List (List Text)} {column n : ℕ} :
    columnWidth table column ≤ n ↔ ∀ texts ∈ table, (texts[column]?.getD []).length ≤ n := by
  rw [columnWidth, Text.foldl_max_length_le_iff, and_iff_right (Nat.zero_le n)]
  constructor
  · intro h texts htexts
    cases htext : texts[column]? with
    | none => exact Nat.zero_le n
    | some text => exact h text (List.mem_filterMap.mpr ⟨texts, htexts, htext⟩)
  · intro h text htext
    obtain ⟨texts, htexts, htext⟩ := List.mem_filterMap.mp htext
    simpa [htext] using h texts htexts

/-- **The texts of an aligned line stand at the starts of their columns**, and the line ends where
they end. -/
theorem placed_alignLine {table : List (List Text)} {texts : List Text} (hmem : texts ∈ table)
    (hne : texts ≠ []) (hink : ∀ text ∈ texts.getLast?, EndsInInk text) :
    EndsInInk (alignLine table texts) ∧
      Placed 0 (columnStart (columnWidth table)) texts (alignLine table texts) := by
  have hroom : ∀ i text, texts[i]? = some text → text.length ≤ columnWidth table (0 + i) := by
    intro i text hi
    have hwidth := columnWidth_le_iff.mp (le_refl (columnWidth table i)) texts hmem
    rwa [hi, Option.getD_some, ← Nat.zero_add i] at hwidth
  have hfront : ([] : Text).length = columnStart (columnWidth table) 0 := rfl
  obtain ⟨body, gap, hbody, hends, hplaced⟩ := placed_joinWith hne hroom hink hfront
  have hline : alignLine table texts = body := by
    show Text.trimEnd (joinWith [' ', ' '] (padded (columnWidth table) 0 texts)) = body
    rw [hbody, hends.trimEnd_append_blank (Text.blank_spaces gap)]
  rw [hline]
  refine ⟨hends, ?_⟩
  simp only [Nat.zero_add, List.nil_append] at hplaced
  exact hplaced

end Row

namespace Layout

open Text (Placed EndsInInk)

variable {l : Layout} {lines : List Text}

/-- The column in which the first text of a row stands. The header is moved by a column of sizes,
which there is when a row below has more than its size. -/
def firstColumn (l : Layout) (r : ℕ) : ℕ :=
  if r = 0 ∧ ∃ row ∈ l.body, 1 < row.length then 1 else 0

/-- The text that a row has in a column. -/
def textAt (rules : Rules) (l : Layout) (r column : ℕ) : Option Text :=
  if l.firstColumn r ≤ column then
    (l.rows[r]?.bind (·[column - l.firstColumn r]?)).map (Cell.write rules)
  else none

/-- The length of the longest text of a column, over all rows. -/
def width (rules : Rules) (l : Layout) (column : ℕ) : ℕ :=
  (Finset.range l.rows.length).sup fun r => ((l.textAt rules r column).getD []).length

/-- Where a column begins: two spaces stand behind the longest text of each column before it. -/
def start (rules : Rules) (l : Layout) (column : ℕ) : ℕ :=
  ∑ j ∈ Finset.range column, (l.width rules j + 2)

/-- **The rows of the table that is written** are the texts of the cells, behind a gap if the row is
moved. -/
theorem getElem?_table (rules : Rules) (l : Layout) (r : ℕ) :
    (Row.table rules l.rows)[r]? = l.rows[r]?.map fun row =>
      List.replicate (l.firstColumn r) [] ++ row.map (Cell.write rules) := by
  have hsizes : Row.hasSizeColumn l.rows = decide (∃ row ∈ l.body, 1 < row.length) := by
    simp [Row.hasSizeColumn, rows, List.any_eq]
  unfold Row.table firstColumn
  rw [hsizes]
  by_cases h : ∃ row ∈ l.body, 1 < row.length
  · cases r <;> simp [h, rows]
  · simp [h]

theorem length_table (rules : Rules) (l : Layout) :
    (Row.table rules l.rows).length = l.rows.length := by
  unfold Row.table
  split_ifs
  · simp
  · rw [List.length_map]

theorem textAt_eq {r : ℕ} {row : Row} (hrow : l.rows[r]? = some row) (column : ℕ) :
    (List.replicate (l.firstColumn r) [] ++ row.map (Cell.write rules))[column]?.getD [] =
      (l.textAt rules r column).getD [] := by
  unfold textAt
  rw [hrow, Option.bind_some]
  split_ifs with hcolumn
  · rw [List.getElem?_append_right (by simpa using hcolumn), List.length_replicate,
      List.getElem?_map]
  · rw [List.getElem?_append_left (by simpa using hcolumn),
      List.getElem?_replicate_of_lt (by omega)]
    rfl

theorem columnWidth_table (rules : Rules) (l : Layout) :
    Row.columnWidth (Row.table rules l.rows) = l.width rules := by
  funext column
  refine eq_of_forall_ge_iff fun n => ?_
  rw [Row.columnWidth_le_iff, width, Finset.sup_le_iff]
  constructor
  · intro h r hr
    have hrow := List.getElem?_eq_getElem (Finset.mem_range.mp hr)
    have htexts := getElem?_table rules l r
    rw [hrow, Option.map_some] at htexts
    have hn := h _ (List.mem_of_getElem? htexts)
    rwa [textAt_eq hrow] at hn
  · intro h texts htexts
    obtain ⟨r, hr⟩ := List.mem_iff_getElem?.mp htexts
    rw [getElem?_table, Option.map_eq_some_iff] at hr
    obtain ⟨row, hrow, rfl⟩ := hr
    rw [textAt_eq hrow]
    exact h r (Finset.mem_range.mpr (List.getElem?_eq_some_iff.mp hrow).1)

theorem columnStart_table (rules : Rules) (l : Layout) :
    Row.columnStart (Row.columnWidth (Row.table rules l.rows)) = l.start rules := by
  rw [columnWidth_table]
  rfl

/-! ### What was read -/

theorem endsInInk_write (h : read rules lines = .ok l) {row : Row} (hrow : row ∈ l.rows)
    {cell : Cell} (hcell : cell ∈ row) : EndsInInk (Cell.write rules cell) := by
  obtain ⟨line, -, token, htoken, hsheds⟩ := exists_token_of_read h hrow hcell
  obtain ⟨⟨after, hfront⟩, -⟩ := Token.front_of_mem_tokens htoken
  exact hsheds.endsInInk hfront.exists_concat_ink

theorem ne_nil_of_mem_rows (h : read rules lines = .ok l) : ∀ row ∈ l.rows, row ≠ [] := by
  have hvalid := (read_eq_ok_iff_valid.mp h).1
  refine List.forall_mem_cons.mpr ⟨hvalid.nonempty, fun row hrow => ?_⟩
  rw [(hvalid.rows row hrow).sized]
  exact List.cons_ne_nil _ _

/-- **Columns are aligned.** A layout that was read is written with a line for each of its rows. The
text of a cell begins where its column begins, on every line that has this column. All else on the
line are spaces, at least two between two texts, and the line ends with the last character of its
last text, which is no blank. -/
theorem columns_are_aligned (h : read rules lines = .ok l) :
    (l.write rules).length = l.rows.length ∧
    ∀ r row line, l.rows[r]? = some row → (l.write rules)[r]? = some line →
      row ≠ [] ∧ EndsInInk line ∧
      Placed 0 (fun i => l.start rules (l.firstColumn r + i)) (row.map (Cell.write rules))
        line := by
  refine ⟨by rw [write, Row.writeAll, List.length_map, length_table], ?_⟩
  intro r row line hrow hline
  have hmem := List.mem_of_getElem? hrow
  have hne : row.map (Cell.write rules) ≠ [] := by simpa using ne_nil_of_mem_rows h row hmem
  have htable := getElem?_table rules l r
  rw [hrow, Option.map_some] at htable
  have halign : Row.alignLine (Row.table rules l.rows)
      (List.replicate (l.firstColumn r) [] ++ row.map (Cell.write rules)) = line := by
    rw [write, Row.writeAll, List.getElem?_map, htable] at hline
    exact Option.some.inj hline
  have hlast : ∀ text ∈ (List.replicate (l.firstColumn r) [] ++
      row.map (Cell.write rules)).getLast?, EndsInInk text := by
    intro text htext
    rw [List.getLast?_append_of_ne_nil _ hne] at htext
    obtain ⟨cell, hcell, rfl⟩ := List.mem_map.mp (List.mem_of_getLast? htext)
    exact endsInInk_write h hmem hcell
  have hplaced := Row.placed_alignLine (List.mem_of_getElem? htable)
    (List.append_ne_nil_of_right_ne_nil _ hne) hlast
  rw [halign, columnStart_table] at hplaced
  exact ⟨by simpa using hne, hplaced.1, hplaced.2.of_replicate⟩

/-- In the second line below the text of the last column begins behind the longest text of the
column before it, which is in the header:
```
      minmax(1px, 2fr)  1em
auto  A,B               ..
 ``` -/
theorem header_moved_by_the_sizes : ∃ l : Layout,
    read {} ["minmax(1px, 2fr) 1em".toList, "auto A,B ..".toList] = .ok l ∧
    l.write {} = ["      minmax(1px, 2fr)  1em".toList, "auto  A,B               ..".toList] ∧
    l.firstColumn 0 = 1 ∧ [0, 1, 2].map (l.start {}) = [0, 6, 24] ∧
    Placed 0 (fun i => l.start {} (l.firstColumn 0 + i)) ["minmax(1px, 2fr)".toList, "1em".toList]
      "      minmax(1px, 2fr)  1em".toList := by
  have hread : read {} ["minmax(1px, 2fr) 1em".toList, "auto A,B ..".toList] =
      .ok ⟨[["minmax(1px, 2fr)".toList], ["1em".toList]],
        [[["auto".toList], [['A'], ['B']], []]]⟩ := by
    decide +kernel
  have hwrite : write {} ⟨[["minmax(1px, 2fr)".toList], ["1em".toList]],
      [[["auto".toList], [['A'], ['B']], []]]⟩ =
      ["      minmax(1px, 2fr)  1em".toList, "auto  A,B               ..".toList] := by
    decide +kernel
  obtain ⟨-, hlines⟩ := columns_are_aligned hread
  have hline : (write {} ⟨[["minmax(1px, 2fr)".toList], ["1em".toList]],
      [[["auto".toList], [['A'], ['B']], []]]⟩)[0]? =
        some "      minmax(1px, 2fr)  1em".toList := by
    rw [hwrite]
    rfl
  obtain ⟨-, -, hplaced⟩ := hlines 0 _ _ rfl hline
  exact ⟨_, hread, hwrite, by decide, by decide, hplaced⟩

end Layout

end GridText
