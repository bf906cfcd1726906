import GridText.Plan.Basic
import GridText.Proofs.Layout.Alignment
import GridText.Proofs.Layout.Defects

/-! # Alignment: plans that differ in their blanks

How the columns of a layout text are lined up says nothing. Under rules with a comma for a separator,
lines with the same runs have plans that are equal but for the blanks between the arguments of a
`minmax`, or they are refused for the same cause at the same place. -/

namespace GridText.Plan

open Text (runs)

variable {rules : Rules} {lines lines' : List Text}

theorem ofRows_eq_ok {l : Layout} (h : Layout.read rules lines = .ok l) :
    ofRows rules lines = .ok ⟨l, rules⟩ := Except.bind_eq_ok_iff.mpr ⟨l, h, rfl⟩

theorem ofRows_eq_error {f : Fault} (h : Layout.read rules lines = .error f) :
    ofRows rules lines = .error f := Except.bind_eq_error_iff.mpr (Or.inl h)

section Sizes
variable {l l' : Layout} (h : l.Alike l')
include h

theorem sameSize_columnSizes :
    List.Forall₂ Track.SameSize (columnSizes ⟨l, rules⟩) (columnSizes ⟨l', rules⟩) := by
  unfold columnSizes shape
  simp only [h.shape_eq]
  split_ifs
  · exact .nil
  · exact h.sameSize_header

theorem sameSize_rowSizes :
    List.Forall₂ Track.SameSize (rowSizes ⟨l, rules⟩) (rowSizes ⟨l', rules⟩) := by
  unfold rowSizes shape
  simp only [h.shape_eq]
  split_ifs
  · exact h.sameSize_rows
  · exact h.sameSize_body

end Sizes

/-- **The alignment of a layout text is cosmetic.** -/
theorem alignment_is_cosmetic (hsep : rules.separator = [','])
    (h : lines.map runs = lines'.map runs) :
    (∃ p p', ofRows rules lines = .ok p ∧ ofRows rules lines' = .ok p' ∧ p.shape = p'.shape ∧
      p.layout.body.map Row.cells = p'.layout.body.map Row.cells ∧ p.areas = p'.areas ∧
      p.emptyCells = p'.emptyCells ∧
      List.Forall₂ Track.SameSize p.columnSizes p'.columnSizes ∧
      List.Forall₂ Track.SameSize p.rowSizes p'.rowSizes) ∨
    ∃ d d', ofRows rules lines = .error (.defect d) ∧ ofRows rules lines' = .error (.defect d') ∧
      d.kind = d'.kind ∧ { d.details with text := none } = { d'.details with text := none } := by
  have hruns : Layout.SameRuns lines lines' := by
    rw [← List.forall₂_eq_eq_eq, List.forall₂_map_left_iff, List.forall₂_map_right_iff] at h
    exact h
  have hread := Layout.read_of_runs hsep hruns
  cases hl : Layout.read rules lines with
  | ok l =>
    rw [hl] at hread
    generalize hl' : Layout.read rules lines' = result at hread
    cases hread with
    | @ok _ l' halike =>
      exact Or.inl ⟨_, _, ofRows_eq_ok hl, ofRows_eq_ok hl', halike.shape_eq, halike.map_cells_eq,
        halike.areas_eq, halike.emptyCells_eq, sameSize_columnSizes halike,
        sameSize_rowSizes halike⟩
  | error f =>
    rw [hl] at hread
    generalize hl' : Layout.read rules lines' = result at hread
    cases hread with
    | error halike =>
      cases halike with
      | defect hd => exact Or.inr ⟨_, _, ofRows_eq_error hl, ofRows_eq_error hl', hd⟩
      | emptySeparator =>
        obtain ⟨d, he, -⟩ := Layout.read_eq_error (by simp [hsep]) hl
        cases he

/-- Tabs and spaces that do not break, around the cells, in a `minmax` and in the call `f(a, b)`. -/
theorem tabs_and_unbroken_spaces : ∃ lines lines' : List Text,
    ({} : Rules).separator = [','] ∧ lines.map runs = lines'.map runs ∧
    ∃ p p', ofRows {} lines = .ok p ∧ ofRows {} lines' = .ok p' ∧
      p.columnSizes = ["1fr".toList, "minmax(1px,  2fr)".toList] ∧
      p'.columnSizes = ["1fr".toList, "minmax(1px,\t2fr)".toList] ∧
      p.areas.items = ["f(a".toList, "b)".toList, "c".toList] ∧ p.areas = p'.areas := by
  have hsep : ({} : Rules).separator = [','] := rfl
  have hruns :
      ["1fr minmax(1px,  2fr)".toList, "minmax(1px, 2fr) f(a, b) c".toList, "auto .. c".toList].map
        runs =
      ["\t1fr   minmax(1px,\t2fr) ".toList, "minmax(1px,\u00a02fr)  f(a,\u00a0b)\tc".toList,
        " auto\t..  c".toList].map runs := by decide +kernel
  have hread : (ofRows {} ["1fr minmax(1px,  2fr)".toList, "minmax(1px, 2fr) f(a, b) c".toList,
      "auto .. c".toList]).map (fun p => (p.columnSizes, p.areas.items)) =
      .ok (["1fr".toList, "minmax(1px,  2fr)".toList], ["f(a".toList, "b)".toList, "c".toList]) := by
    decide +kernel
  have hread' : (ofRows {} ["\t1fr   minmax(1px,\t2fr) ".toList,
      "minmax(1px,\u00a02fr)  f(a,\u00a0b)\tc".toList, " auto\t..  c".toList]).map columnSizes =
      .ok ["1fr".toList, "minmax(1px,\t2fr)".toList] := by decide +kernel
  refine ⟨_, _, hsep, hruns, ?_⟩
  rcases alignment_is_cosmetic hsep hruns with
    ⟨p, p', hp, hp', -, -, hareas, -⟩ | ⟨d, d', hd, -⟩
  · rw [hp] at hread
    rw [hp'] at hread'
    obtain ⟨hsizes, hitems⟩ := Prod.mk.inj (Except.ok.inj hread)
    exact ⟨p, p', hp, hp', hsizes, Except.ok.inj hread', hitems, hareas⟩
  · rw [hd] at hread
    cases hread

end GridText.Plan
