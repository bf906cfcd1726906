import GridText.Proofs.Layout.Language
import GridText.Proofs.Row.Writing

/-! # Writing a layout: what is read of it

The lines of a layout that was read hold the texts of its cells, and these are the tokens that were
read without some of their blanks. So each text is cut by itself, into one token or more
(`tokens_write_of_read`), and the lines are read as the same layout exactly when each cell comes back
from its text (`read_write_iff`).

* `holds_write`: every line that is written holds the texts of its row.
* `mem_write`, `mem_of_mem_write`: what is written holds spaces and characters that were read. -/

namespace GridText.Layout

open Text (Begins Sheds)
open Token (tokens)

variable {rules : Rules} {l : Layout} {lines : List Text}

/-! ### The lines of a layout -/

/-- **Every line that is written holds the texts of its row.** -/
theorem holds_write (rules : Rules) (l : Layout) :
    List.Forall₂ (fun row line => Row.Holds (row.map (Cell.write rules)) line) l.rows
      (l.write rules) := by
  unfold write Row.writeAll Row.table rows
  have hbody (table : List (List Text)) :
      List.Forall₂ (fun row line => Row.Holds (row.map (Cell.write rules)) line) l.body
        ((l.body.map (·.map (Cell.write rules))).map (Row.alignLine table)) := by
    rw [List.forall₂_map_right_iff, List.forall₂_map_right_iff]
    exact List.forall₂_same.mpr fun row _ => Row.holds_alignLine table _
  split_ifs
  · exact .cons (Row.holds_alignLine_shifted _ _) (hbody _)
  · exact .cons (Row.holds_alignLine _ _) (hbody _)

theorem mem_write {line : Text} (hline : line ∈ l.write rules) {c : Char} (hc : c ∈ line) :
    c = ' ' ∨ ∃ row ∈ l.rows, ∃ cell ∈ row, c ∈ Cell.write rules cell := by
  unfold write Row.writeAll at hline
  obtain ⟨texts, htexts, rfl⟩ := List.mem_map.mp hline
  refine (Row.mem_alignLine hc).imp_right ?_
  rintro ⟨text, htext, hctext⟩
  -- the gap in front of the header holds no character
  obtain ⟨row, hrow, hmem⟩ : ∃ row ∈ l.rows, text ∈ row.map (Cell.write rules) := by
    unfold Row.table rows at htexts
    split_ifs at htexts
    · rcases List.mem_cons.mp htexts with rfl | htexts
      · refine ⟨l.header, List.mem_cons_self, List.mem_of_ne_of_mem ?_ htext⟩
        rintro rfl
        cases hctext
      · obtain ⟨row, hrow, rfl⟩ := List.mem_map.mp htexts
        exact ⟨row, List.mem_cons_of_mem _ hrow, htext⟩
    · obtain ⟨row, hrow, rfl⟩ := List.mem_map.mp htexts
      exact ⟨row, hrow, htext⟩
  obtain ⟨cell, hcell, rfl⟩ := List.mem_map.mp hmem
  exact ⟨row, hrow, cell, hcell, hctext⟩

/-! ### What was read -/

theorem exists_sheds_of_read (h : read rules lines = .ok l) {row : Row} (hrow : row ∈ l.rows) :
    ∃ line ∈ lines, List.Forall₂ Sheds (tokens line) (row.map (Cell.write rules)) := by
  obtain ⟨hlang, rfl⟩ := read_eq_ok_iff_inLanguage.mp h
  obtain ⟨first, body, rfl⟩ := List.exists_cons_of_ne_nil (l := lines) (by
    rintro rfl
    exact hlang.1.nonempty rfl)
  rcases List.mem_cons.mp hrow with rfl | hrow
  · refine ⟨first, List.mem_cons_self, ?_⟩
    rw [ofTokens, List.map_cons, List.headD_cons, Row.map_write_sizes]
    exact List.forall₂_same.mpr fun size _ => Sheds.refl size
  · obtain ⟨found, hfound, rfl⟩ := List.mem_map.mp hrow
    have hwf := hlang.1.wellFormed hlang.2 hfound
    obtain ⟨line, hline, rfl⟩ := List.mem_map.mp hfound
    exact ⟨line, List.mem_cons_of_mem first hline, Row.sheds_write hwf⟩

theorem exists_token_of_read (h : read rules lines = .ok l) {row : Row} (hrow : row ∈ l.rows)
    {cell : Cell} (hcell : cell ∈ row) :
    ∃ line ∈ lines, ∃ token ∈ tokens line, Sheds token (Cell.write rules cell) := by
  obtain ⟨line, hline, hsheds⟩ := exists_sheds_of_read h hrow
  obtain ⟨i, hi, rfl⟩ := List.getElem_of_mem hcell
  have htext : i < (row.map (Cell.write rules)).length := by rwa [List.length_map]
  have htoken : i < (tokens line).length := hsheds.length_eq ▸ htext
  refine ⟨line, hline, (tokens line)[i], List.getElem_mem htoken, ?_⟩
  simpa using hsheds.get htoken htext

theorem mem_of_mem_write (h : read rules lines = .ok l) {line : Text}
    (hline : line ∈ l.write rules) {c : Char} (hc : c ∈ line) :
    c = ' ' ∨ ∃ source ∈ lines, c ∈ source := by
  refine (mem_write hline hc).imp_right ?_
  rintro ⟨row, hrow, cell, hcell, hc⟩
  obtain ⟨source, hsource, token, htoken, hsheds⟩ := exists_token_of_read h hrow hcell
  exact ⟨source, hsource, (Token.front_of_mem_tokens htoken).2 c (hsheds.mem hc)⟩

theorem tokens_write_of_read (h : read rules lines = .ok l) :
    List.Forall₂ (fun row line => (row.map (Cell.write rules)).flatMap tokens = tokens line) l.rows
      (l.write rules) := by
  refine ((List.forall₂_and_left l.rows (l.write rules)).mpr
    ⟨fun row hrow => exists_sheds_of_read h hrow, holds_write rules l⟩).imp ?_
  rintro row line ⟨⟨source, -, hsheds⟩, hholds⟩
  exact (hholds.tokens_eq hsheds).symm

theorem tokens_write_ne_nil (h : read rules lines = .ok l) {row : Row} (hrow : row ∈ l.rows)
    {cell : Cell} (hcell : cell ∈ row) : tokens (Cell.write rules cell) ≠ [] := by
  obtain ⟨line, -, token, htoken, hsheds⟩ := exists_token_of_read h hrow hcell
  obtain ⟨c, rest, htext, hc⟩ := hsheds.begins (Token.begins_of_mem_tokens htoken)
  intro hnil
  have := Token.tokens_eq_nil_iff.mp hnil c (by simp [htext])
  rw [hc] at this
  cases this

theorem ofTokens_write (h : read rules lines = .ok l) :
    ofTokens rules ((l.write rules).map tokens) = ⟨l.header,
      l.body.map fun row => Row.ofTokens rules ((row.map (Cell.write rules)).flatMap tokens)⟩ := by
  have htokens :=
    List.forall₂_map_right_iff.mpr (List.forall₂_map_left_iff.mpr (tokens_write_of_read h))
  rw [List.forall₂_eq_eq_eq] at htokens
  have hheader : ((l.header.map (Cell.write rules)).flatMap tokens).map ([·]) = l.header := by
    have hvalid := (read_eq_ok_iff_valid.mp h).1
    rw [List.flatMap_map, List.map_flatMap, Row.flatMap_eq_self_iff]
    · intro cell hcell
      obtain ⟨size, hsize, rfl⟩ := hvalid.header cell hcell
      have hfront := hsize.solid.front Text.blank_nil.stops
      rw [Cell.write_singleton hfront.begins, hfront.tokens_eq, List.map_singleton]
    · intro cell hcell he
      exact tokens_write_ne_nil h List.mem_cons_self hcell (List.map_eq_nil_iff.mp he)
  rw [← htokens, ofTokens, rows, List.map_cons, List.headD_cons, List.tail_cons, hheader,
    List.map_map]
  rfl

/-- **The lines of a layout are read as this layout** exactly when each of its cells comes back from
its text. -/
theorem read_write_iff (h : read rules lines = .ok l) :
    read rules (l.write rules) = .ok l ↔
      ∀ row ∈ l.body, ∀ cell ∈ row.cells, cell.Restored rules := by
  have hvalid := (read_eq_ok_iff_valid.mp h).1
  have hrow : ∀ row ∈ l.body,
      Row.ofTokens rules ((row.map (Cell.write rules)).flatMap tokens) = row ↔
        ∀ cell ∈ row.cells, cell.Restored rules := fun row hrow =>
    Row.ofTokens_flatMap_eq_iff (hvalid.rows row hrow) fun cell hcell =>
      tokens_write_ne_nil h (List.mem_cons_of_mem _ hrow) (List.mem_of_mem_drop hcell)
  rw [read_eq_ok_iff_valid, and_iff_right hvalid, ofTokens_write h]
  calc Layout.mk l.header _ = l
      ↔ l.body.map (fun row => Row.ofTokens rules ((row.map (Cell.write rules)).flatMap tokens)) =
          l.body := by
        rw [show l = ⟨l.header, l.body⟩ from rfl, mk.injEq, and_iff_right rfl]
    _ ↔ ∀ row ∈ l.body, Row.ofTokens rules ((row.map (Cell.write rules)).flatMap tokens) = row := by
        conv_lhs => rhs; rw [← List.map_id l.body]
        exact List.map_inj_left
    _ ↔ _ := forall₂_congr hrow

/-- A layout is read back where the cells of all tokens come back. -/
theorem read_write_of_restored (h : read rules lines = .ok l)
    (hcell : ∀ line, ∀ token ∈ tokens line, (Cell.ofEntry rules token).Restored rules) :
    read rules (l.write rules) = .ok l := by
  refine (read_write_iff h).mpr fun row hrow cell hmem => ?_
  obtain ⟨line, -, entry, hentry, rfl⟩ := exists_entry_of_read h hrow hmem
  exact hcell line entry hentry

end GridText.Layout
