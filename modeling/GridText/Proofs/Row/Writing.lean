import GridText.Layout.Writing
import GridText.Proofs.Row.Columns
import GridText.Proofs.Row.Respacing
import GridText.Proofs.Text.Pad
import Mathlib.Algebra.BigOperators.Group.List.Basic

/-! # Writing a row: what is read of it

An entry is written as its parts, which is the entry without some of its blanks
(`Cell.write_ofEntry`, `Cell.sheds_write`), and each text is set apart from the next by two spaces or
more. Both halves meet at `Spaced`: an aligned line is spaced, and what is spaced is cut into the
tokens of its texts.

* `Track.Size.solid`: a size is one token, whatever stands beside it.
* `Cell.Restored`: the text of a cell is one token that spells the cell.
* `Cell.write_ofEntry_of_comma`, `Cell.restored_ofEntry`: under rules with a comma for a separator an
  entry is written without any blanks, and its cell is restored.
* `Row.holds_alignLine`, `Row.holds_alignLine_shifted`: an aligned line has the tokens of its texts
  with blanks between them.
* `Row.ofTokens_flatMap_eq_iff`: a row is spelt by its texts when its cells are restored. -/

namespace GridText

open Text (Begins Blank Ink Sheds Spread squeeze)

variable {rules : Rules} {s token after : Text}

/-! ### Sizes -/

theorem Track.isArgumentChar_of_plain {c : Char} (h : isBlank c = false ∧ c ∉ callMarks) :
    Token.isArgumentChar c = true := by
  obtain ⟨hink, hmarks⟩ := h
  simp only [callMarks, List.mem_cons, List.not_mem_nil, or_false, not_or] at hmarks
  simp [Token.isArgumentChar, isInk, hink, hmarks.1, hmarks.2.1]

theorem Track.Simple.isArgumentChar (h : Simple s) :
    ∀ c ∈ s, Token.isArgumentChar c = true := fun c hc => isArgumentChar_of_plain (h.plain.2 c hc)

/-- **A size is a solid token**: a text without blanks and brackets, or a call. -/
theorem Track.Size.solid (h : Size s) : Token.Solid s := by
  cases h with
  | simple hs =>
    refine .plain hs.plain.1 fun c hc => ?_
    have := hs.isArgumentChar c hc
    simp only [Token.isArgumentChar, Bool.and_eq_true] at this
    simp [Token.isNameChar, this.1]
  | @minmax first gap second hfirst hgap hblank hsecond =>
    have hargs : ∀ c ∈ first ++ [','], Token.isArgumentChar c = true := by
      refine List.forall_mem_append.mpr ⟨hfirst.isArgumentChar, ?_⟩
      exact List.forall_mem_singleton.mpr rfl
    have hcomma : ',' ∉ first := fun hc => (hfirst.plain.2 ',' hc).2 (by decide)
    have hends : Token.endsInComma (first ++ [',']) = true := by
      simp [Token.endsInComma, hcomma, hfirst.plain.1]
    have hlast : Token.Arguments (second ++ [')']) := .last hsecond.plain.1 hsecond.isArgumentChar
    have hname : ∀ c ∈ "minmax".toList, Token.isNameChar c = true :=
      List.all_eq_true.mp (by decide)
    have htext : minmaxText first gap second =
        "minmax".toList ++ '(' :: ((first ++ [',']) ++ (gap ++ (second ++ [')']))) := by
      show "minmax".toList ++ '(' :: (first ++ [',']) ++ gap ++ (second ++ [')']) = _
      rw [List.append_assoc, List.append_assoc, List.cons_append]
    exact .call ⟨_, _, htext, by decide, hname, .more (by simp) hargs hends hgap hblank hlast⟩
  | @fitContent argument hfit =>
    have hlast : Token.Arguments (argument ++ [')']) :=
      .last hfit.simple.plain.1 hfit.simple.isArgumentChar
    have hname : ∀ c ∈ "fit-content".toList, Token.isNameChar c = true :=
      List.all_eq_true.mp (by decide)
    exact .call ⟨_, argument ++ [')'], rfl, by decide, hname, hlast⟩

/-! ### Blanks in tokens -/

namespace Token

theorem Arguments.spread (h : Arguments s) : Spread ',' s := by
  induction h with
  | last hne ha =>
    exact Text.spread_of_ink
      (Ink.append (fun c hc => isInk_of_isArgumentChar (ha c hc)) (Text.ink_singleton rfl))
  | @more a gap rest hne ha hcomma hgap hblank hrest ih =>
    have hink : Ink a := fun c hc => isInk_of_isArgumentChar (ha c hc)
    obtain ⟨c, rest, rfl, hc⟩ := hrest.begins
    refine List.isChain_append.mpr ⟨Text.spread_of_ink hink, List.isChain_append.mpr
      ⟨Text.spread_of_blank hblank, ih, ?_⟩, ?_⟩
    · rintro x - y hy hyblank
      obtain rfl : c = y := by simpa using hy
      rw [hc] at hyblank
      cases hyblank
    · rintro x hx y - -
      simp only [endsInComma, Bool.and_eq_true, decide_eq_true_eq] at hcomma
      rw [hcomma.1.1] at hx
      exact Or.inr (Option.some.inj hx).symm

theorem Front.spread (h : Front token after) : Spread ',' token := by
  cases h with
  | run _ hink => exact Text.spread_of_ink hink
  | call hcall =>
    obtain ⟨name, inner, rfl, -, hname, hinner⟩ := hcall
    have hink : Ink (name ++ ['(']) :=
      Ink.append (fun c hc => isInk_of_isNameChar (hname c hc)) (Text.ink_singleton rfl)
    rw [List.append_cons]
    refine List.isChain_append.mpr ⟨Text.spread_of_ink hink, hinner.spread, ?_⟩
    rintro x - y hy hyblank
    obtain ⟨c, rest, rfl, hc⟩ := hinner.begins
    obtain rfl : c = y := by simpa using hy
    rw [hc] at hyblank
    cases hyblank

theorem spread_of_mem_tokens (h : token ∈ tokens s) : Spread ',' token := by
  obtain ⟨⟨after, hfront⟩, -⟩ := front_of_mem_tokens h
  exact hfront.spread

theorem tokens_of_mem_tokens (h : token ∈ tokens s) : tokens token = [token] := by
  obtain ⟨⟨after, hfront⟩, -⟩ := front_of_mem_tokens h
  exact hfront.tokens_eq

theorem tokens_squeeze_of_mem_tokens (h : token ∈ tokens s) :
    tokens (squeeze token) = [squeeze token] := by
  obtain ⟨⟨after, hfront⟩, -⟩ := front_of_mem_tokens h
  cases hfront with
  | call hcall =>
    have hfront : Front (squeeze token) after := .call hcall.squeeze
    exact hfront.tokens_eq
  | run hne hink =>
    rw [Text.squeeze_of_ink hink]
    exact tokens_of_mem_tokens h

end Token

/-! ### Cells -/

namespace Cell

theorem parts_eq_splitOn_squeeze (hsep : rules.separator = [',']) (hs : Spread ',' s) :
    parts rules s = Text.splitOn [','] (squeeze s) := by
  rw [parts, hsep, Text.map_trim_splitOn rfl hs]

theorem parts_squeeze (hsep : rules.separator = [',']) (hs : Spread ',' s) :
    parts rules (squeeze s) = parts rules s := by
  have hink := Text.ink_squeeze s
  rw [parts_eq_splitOn_squeeze hsep hs, parts_eq_splitOn_squeeze hsep (Text.spread_of_ink hink),
    Text.squeeze_of_ink hink]

theorem ofEntry_squeeze (hsep : rules.separator = [',']) (hs : Spread ',' s) :
    ofEntry rules (squeeze s) = ofEntry rules s := by
  rw [ofEntry, ofEntry, parts_squeeze hsep hs]

theorem write_ofEntry (hsep : rules.separator ≠ []) (hb : Begins s) :
    write rules (ofEntry rules s) = Text.tidy rules.separator s := by
  have htidy : Text.joinWith rules.separator (parts rules s) = Text.tidy rules.separator s := rfl
  unfold write ofEntry ofParts
  by_cases hmarker : parts rules s = [rules.marker]
  · rw [hmarker, Text.joinWith_singleton] at htidy
    rw [if_pos hmarker, ← htidy]
    rfl
  · obtain ⟨c, rest, htext, -⟩ := (Text.sheds_tidy hsep s).begins hb
    rw [if_neg hmarker, htidy, if_neg (by simp [htext])]

/-- **An entry is written without some of its blanks.** -/
theorem sheds_write (hsep : rules.separator ≠ []) (hb : Begins s) :
    Sheds s (write rules (ofEntry rules s)) := by
  rw [write_ofEntry hsep hb]
  exact Text.sheds_tidy hsep s

theorem write_ofEntry_of_comma (hsep : rules.separator = [',']) (hs : Spread ',' s)
    (hb : Begins s) : write rules (ofEntry rules s) = squeeze s := by
  rw [write_ofEntry (by simp [hsep]) hb, hsep, Text.tidy, Text.map_trim_splitOn rfl hs,
    Text.joinWith_splitOn (by simp)]

theorem write_singleton (hb : Begins s) : write rules [s] = s := by
  obtain ⟨c, rest, rfl, -⟩ := hb
  simp [write, Text.joinWith]

/-- **A cell that comes back from its text**: this is one token, which spells the cell. -/
def Restored (rules : Rules) (cell : Cell) : Prop :=
  (Token.tokens (write rules cell)).map (ofEntry rules) = [cell]

theorem restored_ofEntry (hsep : rules.separator = [',']) (h : token ∈ Token.tokens s) :
    Restored rules (ofEntry rules token) := by
  have hspread := Token.spread_of_mem_tokens h
  unfold Restored
  rw [write_ofEntry_of_comma hsep hspread (Token.begins_of_mem_tokens h),
    Token.tokens_squeeze_of_mem_tokens h, List.map_singleton, ofEntry_squeeze hsep hspread]

end Cell

/-! ### Rows -/

namespace Row

open Token (Spaced tokens)

/-- Cells that are replaced by lists which are not empty stay the same only when each of them is
replaced by itself. -/
theorem flatMap_eq_self_iff {f : Cell → List Cell} {cells : List Cell}
    (hne : ∀ cell ∈ cells, f cell ≠ []) :
    cells.flatMap f = cells ↔ ∀ cell ∈ cells, f cell = [cell] := by
  induction cells with
  | nil => simp
  | cons cell cells ih =>
    obtain ⟨hfirst, hrest⟩ := List.forall_mem_cons.mp hne
    obtain ⟨first, others, hf⟩ := List.exists_cons_of_ne_nil hfirst
    have hlength : cells.length ≤ (cells.flatMap f).length := by
      rw [List.length_flatMap]
      have hone : ∀ n ∈ cells.map fun cell => (f cell).length, 1 ≤ n :=
        List.forall_mem_map.mpr fun cell hcell => List.length_pos_iff.mpr (hrest cell hcell)
      simpa using List.length_le_sum_of_one_le _ hone
    rw [List.forall_mem_cons, ← ih hrest, List.flatMap_cons, hf, List.cons_append,
      List.cons.injEq, List.cons.injEq]
    constructor
    · rintro ⟨rfl, he⟩
      have := congrArg List.length he
      rw [List.length_append] at this
      obtain rfl : others = [] := List.eq_nil_of_length_eq_zero (by omega)
      exact ⟨⟨rfl, rfl⟩, he⟩
    · rintro ⟨⟨rfl, rfl⟩, he⟩
      exact ⟨rfl, he⟩

/-- **The texts of a row that was read** are its tokens without some of their blanks. -/
theorem sheds_write (h : WellFormed rules (tokens s)) :
    List.Forall₂ Sheds (tokens s) ((ofTokens rules (tokens s)).map (Cell.write rules)) := by
  cases hfound : tokens s with
  | nil => exact .nil
  | cons size entries =>
    rw [hfound] at h
    have hbegins : ∀ token ∈ size :: entries, Begins token := fun token htoken =>
      Token.begins_of_mem_tokens (hfound ▸ htoken)
    obtain ⟨hsize, hentries⟩ := List.forall_mem_cons.mp hbegins
    rw [ofTokens, List.map_cons, Cell.write_singleton hsize, List.map_map]
    refine .cons (Sheds.refl size) ?_
    rw [List.forall₂_map_right_iff]
    refine List.forall₂_same.mpr fun entry hentry => ?_
    exact Cell.sheds_write (h.separator (List.ne_nil_of_mem hentry)) (hentries entry hentry)

theorem map_write_sizes (rules : Rules) (s : Text) :
    ((tokens s).map ([·])).map (Cell.write rules) = tokens s := by
  rw [List.map_map]
  conv_rhs => rw [← List.map_id (tokens s)]
  refine List.map_congr_left fun size hsize => ?_
  exact Cell.write_singleton (Token.begins_of_mem_tokens hsize)

/-- **A row is spelt by its texts** exactly when each of its cells comes back. -/
theorem ofTokens_flatMap_eq_iff {row : Row} (h : row.Valid rules)
    (hne : ∀ cell ∈ row.cells, tokens (Cell.write rules cell) ≠ []) :
    ofTokens rules ((row.map (Cell.write rules)).flatMap tokens) = row ↔
      ∀ cell ∈ row.cells, cell.Restored rules := by
  have hsize : tokens (Cell.write rules [row.size]) = [row.size] := by
    have hfront := h.size.solid.front Text.blank_nil.stops
    rw [Cell.write_singleton hfront.begins, hfront.tokens_eq]
  have hcells : (row.map (Cell.write rules)).flatMap tokens =
      row.size :: row.cells.flatMap (tokens ∘ Cell.write rules) := by
    conv_lhs => rw [h.sized]
    rw [List.map_cons, List.flatMap_cons, hsize, List.flatMap_map]
    rfl
  rw [hcells, ofTokens, List.map_flatMap]
  conv_lhs => rhs; rw [h.sized]
  rw [List.cons.injEq, and_iff_right rfl, flatMap_eq_self_iff]
  · rfl
  · intro cell hcell he
    exact hne cell hcell (List.map_eq_nil_iff.mp he)

/-! ### Lines -/

/-- A text with blanks behind it. -/
def Padded (text piece : Text) : Prop := ∃ gap, Blank gap ∧ piece = text ++ gap

theorem padded_pieces (table : List (List Text)) (line : List Text) (n : ℕ) :
    List.Forall₂ Padded line ((line.zipIdx n).map fun (text, column) =>
      Text.padRight (columnWidth table column) text) := by
  conv =>
    arg 2
    rw [← List.zipIdx_map_fst n line]
  rw [List.forall₂_map_left_iff, List.forall₂_map_right_iff]
  exact List.forall₂_same.mpr fun entry _ => ⟨_, Text.blank_spaces _, rfl⟩

/-- **Padded texts with two spaces between them are spaced.** -/
theorem spaced_joinWith {texts pieces : List Text} (h : List.Forall₂ Padded texts pieces) :
    Spaced texts (Text.joinWith [' ', ' '] pieces) := by
  induction h with
  | nil => exact .nil Text.blank_nil
  | @cons text piece texts pieces hpiece hrest ih =>
    obtain ⟨gap, hgap, rfl⟩ := hpiece
    cases pieces with
    | nil =>
      obtain rfl := List.forall₂_nil_right_iff.mp hrest
      rw [Text.joinWith_singleton]
      exact .first hgap.stops (.nil hgap)
    | cons second pieces =>
      have hblank : Blank (gap ++ [' ', ' ']) := hgap.append (Text.blank_spaces 2)
      rw [Text.joinWith_cons_cons, List.append_assoc, List.append_assoc, ← List.append_assoc gap]
      refine .first ?_ (ih.blank_append hblank)
      cases gap with
      | nil => rintro c ⟨⟩; rfl
      | cons c gap => exact fun d hd => hblank d (by simp_all)

/-- The tokens of this line are those of its texts with blanks between them. -/
def Holds (texts : List Text) (line : Text) : Prop := ∃ s, Spaced texts s ∧ tokens line = tokens s

theorem holds_alignLine (table : List (List Text)) (texts : List Text) :
    Holds texts (alignLine table texts) :=
  ⟨_, spaced_joinWith (padded_pieces table texts 0), Token.tokens_trimEnd _⟩

theorem holds_alignLine_shifted (table : List (List Text)) (texts : List Text) :
    Holds texts (alignLine table ([] :: texts)) := by
  have hpieces := padded_pieces table texts 1
  refine ⟨_, ?_, Token.tokens_trimEnd _⟩
  rw [List.zipIdx_cons, List.map_cons, Nat.zero_add]
  generalize (texts.zipIdx 1).map _ = pieces at hpieces ⊢
  have hfirst : Blank (Text.padRight (columnWidth table 0) []) := Text.blank_spaces _
  cases pieces with
  | nil =>
    obtain rfl := List.forall₂_nil_right_iff.mp hpieces
    rw [Text.joinWith_singleton]
    exact .nil hfirst
  | cons piece pieces =>
    rw [Text.joinWith_cons_cons]
    exact (spaced_joinWith hpieces).blank_append (hfirst.append (Text.blank_spaces 2))

/-- The tokens of a line are those of its texts, if these are the tokens of a text without some of
their blanks. -/
theorem Holds.tokens_eq {texts : List Text} {line : Text} (h : Holds texts line)
    (hsheds : List.Forall₂ Sheds (tokens s) texts) : tokens line = texts.flatMap tokens := by
  obtain ⟨s', hspaced, hline⟩ := h
  rw [hline]
  exact Token.tokens_of_spaced rfl hsheds hspaced

theorem mem_alignLine {table : List (List Text)} {texts : List Text} {c : Char}
    (h : c ∈ alignLine table texts) : c = ' ' ∨ ∃ text ∈ texts, c ∈ text := by
  rcases Text.mem_joinWith (Text.mem_of_mem_trimEnd h) with h | ⟨piece, hpiece, h⟩
  · left
    simpa using h
  · obtain ⟨⟨text, column⟩, hentry, rfl⟩ := List.mem_map.mp hpiece
    rcases List.mem_append.mp h with h | h
    · exact Or.inr ⟨text, List.mem_of_getElem? (List.mem_zipIdx_iff_getElem?.mp hentry), h⟩
    · exact Or.inl (List.eq_of_mem_replicate h)

end Row

end GridText
