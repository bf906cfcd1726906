import GridText.Proofs.Layout.Writing
import GridText.Proofs.Plan.Source

/-! # Plans: reading what was written

Under rules with a comma for a separator the lines of a plan, joined by line breaks, are a text of
the same plan. No line that is written holds a line break or is lost as empty, so the text has the
lines that were joined. -/

namespace GridText.Plan

open Token (tokens)

variable {rules : Rules}

theorem not_isLineBreak_of_mem_rowsOfText {text row : Text} (h : row ∈ Source.rowsOfText text)
    {c : Char} (hc : c ∈ row) : isLineBreak c = false := by
  obtain ⟨h, -⟩ := List.mem_filter.mp h
  obtain ⟨line, hline, rfl⟩ := List.mem_map.mp h
  exact Text.isLineBreak_of_mem_lines hline (Text.mem_of_mem_trim hc)

theorem rowsOfText_joinWith {all : List Text} (htokens : ∀ line ∈ all, tokens line ≠ [])
    (h : ∀ line ∈ all, ∀ c ∈ line, isLineBreak c = false) :
    Source.rowsOfText (Text.joinWith ['\n'] all) = all.map Text.trim := by
  rw [Source.rowsOfText_joinWith, List.map_eq_flatMap]
  refine List.flatMap_congr fun line hline => Source.rowsOfText_line (h line hline) fun hblank => ?_
  exact htokens line hline (Token.tokens_eq_nil_iff.mpr hblank)

theorem ofText_write (hsep : rules.separator = [',']) {text : Text} {p : Plan}
    (h : ofText rules text = .ok p) :
    ofText rules (Text.joinWith ['\n'] (p.layout.write p.rules)) = .ok p := by
  obtain ⟨l, hread, hp⟩ := Except.bind_eq_ok_iff.mp h
  obtain rfl := Except.pure_eq_ok_iff.mp hp
  have hwritten := Layout.read_write_of_restored hread fun _ _ htoken =>
    Cell.restored_ofEntry hsep htoken
  have htokens : ∀ line ∈ l.write rules, tokens line ≠ [] := by
    obtain ⟨⟨hlang, -⟩, -⟩ := Layout.read_eq_ok_iff_inLanguage.mp hwritten
    exact fun line hline => hlang.tokens _ (List.mem_map_of_mem hline)
  have hbreak : ∀ line ∈ l.write rules, ∀ c ∈ line, isLineBreak c = false := by
    intro line hline c hc
    rcases Layout.mem_of_mem_write hread hline hc with rfl | ⟨row, hrow, hc⟩
    · rfl
    · exact not_isLineBreak_of_mem_rowsOfText hrow hc
  have htrimmed : ((l.write rules).map Text.trim).map tokens = (l.write rules).map tokens := by
    rw [List.map_map]
    exact List.map_congr_left fun line _ => Token.tokens_trim line
  have hagain : Layout.read rules ((l.write rules).map Text.trim) = .ok l := by
    rw [Layout.read_eq_ok_iff_valid, htrimmed]
    exact Layout.read_eq_ok_iff_valid.mp hwritten
  unfold ofText
  rw [rowsOfText_joinWith htokens hbreak]
  exact Except.bind_eq_ok_iff.mpr ⟨_, hagain, rfl⟩

/-- **A plan is read back from its lines**, whatever template it came from. -/
theorem plans_are_read_back (hsep : rules.separator = [',']) {fragments : List Text}
    {values : List Value} {p : Plan} (h : ofSource rules (.template fragments values) = .ok p) :
    ofSource rules (.template [Text.joinWith ['\n'] (p.layout.write p.rules)] []) = .ok p := by
  obtain ⟨text, -, htext⟩ := Except.bind_eq_ok_iff.mp h
  have hp := ofText_write hsep (Except.mapError_eq_ok_iff.mp htext)
  refine Except.bind_eq_ok_iff.mpr ⟨_, ?_, Except.mapError_eq_ok_iff.mpr hp⟩
  simp [Template.interpolate, Value.writeAll, Template.weave, Except.map, Except.mapError]

/-- The row below the header holds the calls `f(a, b)` and `g(c)`, and `h` without a blank in front;
they are written as `f(a,b)  g(c)  h`. -/
theorem calls_are_read_back :
    ({} : Rules).separator = [','] ∧
      ∃ p, ofSource {} (.template ["1fr 1fr minmax(1px, 2fr)\n2fr f(a, b) g(c)h".toList] []) =
          .ok p ∧ p.areas.items = ["f(a".toList, "b)".toList, "g(c)".toList, ['h']] ∧
        ofSource {} (.template [Text.joinWith ['\n'] (p.layout.write p.rules)] []) = .ok p := by
  have hread : ofSource {} (.template ["1fr 1fr minmax(1px, 2fr)\n2fr f(a, b) g(c)h".toList] []) =
      .ok ⟨⟨[["1fr".toList], ["1fr".toList], ["minmax(1px, 2fr)".toList]],
        [[["2fr".toList], ["f(a".toList, "b)".toList], ["g(c)".toList], [['h']]]]⟩, {}⟩ := by
    decide +kernel
  exact ⟨rfl, _, hread, by decide +kernel, plans_are_read_back rfl hread⟩

end GridText.Plan
