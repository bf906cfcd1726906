import GridText.Proofs.Layout.Writing
import GridText.Proofs.Row.Separators

/-! # Writing a layout: which layouts are read back

A layout is read back from its lines exactly when its cells come back from their texts. Which cells
do is a matter of the separator: under a comma, a blank or a bracket all do, and under any other
single character there is a layout of one cell that does not (`cells_that_come_back`). -/

namespace GridText.Layout

open Token (tokens)

variable {rules : Rules} {d : Char}

/-- The header `1fr` above a row of the size `1fr` and the call. -/
def cutLines (d : Char) : List Text := ["1fr".toList, "1fr ".toList ++ cutCall d]

theorem read_cutLines (hsep : rules.separator = [d]) (hink : isBlank d = false) (hcomma : d ≠ ',')
    (hopen : d ≠ '(') (hclose : d ≠ ')') : read rules (cutLines d) =
      .ok ⟨[["1fr".toList]], [[["1fr".toList], Cell.ofEntry rules (cutCall d)]]⟩ := by
  have hsize : Track.Size "1fr".toList := Track.exists_classify_iff.mp ⟨.fraction, by decide⟩
  have hcall := isCall_cutCall hink hcomma hopen hclose
  have hheader : tokens "1fr".toList = ["1fr".toList] :=
    (hsize.solid.front Text.blank_nil.stops).tokens_eq
  have hrow : tokens ("1fr ".toList ++ cutCall d) = ["1fr".toList, cutCall d] := by
    have hspaced : Token.Spaced ["1fr".toList, cutCall d]
        ("1fr".toList ++ ([' '] ++ (cutCall d ++ []))) := by
      have hgap : Text.Blank [' '] := by decide
      have hstops : Text.Stops ([' '] ++ (cutCall d ++ [])) := by
        rintro c ⟨⟩
        rfl
      exact .first hstops (.cons hgap Text.blank_nil.stops (.nil Text.blank_nil))
    rw [List.append_nil] at hspaced
    refine Token.tokens_of_solid hspaced (List.forall_mem_cons.mpr ⟨hsize.solid, ?_⟩)
    exact List.forall_mem_singleton.mpr (.call hcall)
  have hparts : (Cell.parts rules (cutCall d)).Nodup := by
    rw [Cell.parts, hsep, map_trim_splitOn_cutCall hink hcomma hopen hclose]
    decide
  have hne : rules.separator ≠ [] := hsep ▸ List.cons_ne_nil d []
  rw [read_eq_ok_iff_inLanguage, cutLines, List.map_cons, List.map_singleton, hheader, hrow,
    inLanguage_cons_iff]
  refine ⟨⟨⟨by simp, List.forall_mem_singleton.mpr hsize⟩, ?_, ⟨2, Or.inl rfl, by simp⟩,
    List.isChain_singleton _⟩, rfl⟩
  refine List.forall_mem_singleton.mpr ⟨⟨_, rfl, hsize⟩, fun _ => hne,
    List.forall_mem_singleton.mpr hparts, ?_⟩
  exact Row.unbroken_concat.mpr ⟨Row.unbroken_nil, by simp [Row.resumes]⟩

/-- **The cells that come back.** A layout that was read is read again from its lines exactly when
the text of each of its cells is one token that spells the cell. Under a separator of one character
this holds of all layouts exactly when the character is a blank, a comma or a bracket. -/
theorem cells_that_come_back (rules : Rules) :
    (∀ lines l, read rules lines = .ok l →
      (read rules (l.write rules) = .ok l ↔
        ∀ row ∈ l.body, ∀ cell ∈ row.cells, cell.Restored rules)) ∧
    ∀ d, rules.separator = [d] →
      ((∀ lines l, read rules lines = .ok l → read rules (l.write rules) = .ok l) ↔
        isBlank d = true ∨ d = ',' ∨ d = '(' ∨ d = ')') := by
  refine ⟨fun lines l h => read_write_iff h, fun d hsep => ⟨fun h => ?_, fun hd lines l h => ?_⟩⟩
  · by_contra hd
    simp only [not_or, Bool.not_eq_true] at hd
    obtain ⟨hink, hcomma, hopen, hclose⟩ := hd
    have hread := read_cutLines hsep hink hcomma hopen hclose
    have hcells := (read_write_iff hread).mp (h _ _ hread)
    have hcell := hcells _ List.mem_cons_self _ (List.mem_singleton.mpr rfl)
    exact not_restored_cutCall hink hcomma hopen hclose hsep hcell
  · refine read_write_of_restored h fun line token htoken => ?_
    rcases hd with hd | rfl | hd
    · exact Cell.restored_of_separator hsep (Or.inl hd) htoken
    · exact Cell.restored_ofEntry hsep htoken
    · exact Cell.restored_of_separator hsep (Or.inr hd) htoken

/-- Under a bar the call `f(a, |, c)` is written as `f(a,|, c)` and cut into two tokens. -/
theorem calls_are_cut_apart : ∃ rules lines l, rules.separator ≠ [] ∧ read rules lines = .ok l ∧
    l.write rules = ["     1fr".toList, "1fr  f(a,|, c)".toList] ∧
    read rules (l.write rules) = .error (.defect (.ambiguousSingleColumn 1 3)) := by
  have hread : read ⟨['.', '.'], ['|']⟩ ["1fr".toList, "1fr f(a, |, c)".toList] =
      .ok ⟨[["1fr".toList]], [[["1fr".toList], ["f(a,".toList, ", c)".toList]]]⟩ := by
    decide +kernel
  exact ⟨_, _, _, by decide, hread, by decide +kernel, by decide +kernel⟩

end GridText.Layout
