import GridText.Proofs.Text.Blank

/-! # Text: runs without blanks

The runs of a text are the longest pieces of it without blanks. Two texts are `Alike` if they differ
only in their gaps: where one has blanks, the other has some too. A text can be split at any
character that is no blank, and then a text that is alike is split in the same way (`Alike.split`).

* `runs_append_cons`: a blank separates the runs in front of it from those behind.
* `Alike.of_runs`: texts with the same runs are alike, but for the blanks around them. -/

namespace GridText.Text

variable {s s' t t' gap : Text} {c : Char}

/-- **The longest pieces without blanks**, from left to right. -/
def runs (s : Text) : List Text := (s.splitOnP isBlank).filter (· ≠ [])

theorem runs_of_ink (h : Ink s) (hne : s ≠ []) : runs s = [s] := by
  rw [runs, List.splitOnP_eq_singleton h]
  simp [hne]

theorem runs_append_cons (hc : isBlank c = true) (s t : Text) :
    runs (s ++ c :: t) = runs s ++ runs t := by
  rw [runs, List.splitOnP_append_cons s t hc, List.filter_append]
  rfl

theorem runs_blank_append (h : Blank gap) (s : Text) : runs (gap ++ s) = runs s := by
  induction gap with
  | nil => rfl
  | cons c gap ih =>
    have hfront := runs_append_cons (h c List.mem_cons_self) [] (gap ++ s)
    rw [List.nil_append] at hfront
    rw [List.cons_append, hfront, ih fun d hd => h d (List.mem_cons_of_mem c hd)]
    rfl

theorem runs_of_blank (h : Blank s) : runs s = [] := by
  have hnil := runs_blank_append h []
  rw [List.append_nil] at hnil
  rw [hnil]
  rfl

theorem runs_append_of_stops (ht : Stops t) (s : Text) : runs (s ++ t) = runs s ++ runs t := by
  cases t with
  | nil => rw [runs_of_blank blank_nil, List.append_nil, List.append_nil]
  | cons c t =>
    have hc := ht c rfl
    have hblank : Blank [c] := fun d hd => List.mem_singleton.mp hd ▸ hc
    rw [runs_append_cons hc, ← runs_blank_append hblank t, List.singleton_append]

theorem runs_trim (s : Text) : runs (trim s) = runs s := by
  obtain ⟨gap, hgap, hs⟩ := exists_trimEnd_append (trimStart s)
  calc runs (trim s) = runs (trimEnd (trimStart s) ++ gap) := by
        rw [runs_append_of_stops hgap.stops, runs_of_blank hgap, List.append_nil, trim]
    _ = runs (leadingBlanks s ++ trimStart s) := by
        rw [← hs, runs_blank_append (blank_leadingBlanks s)]
    _ = runs s := by rw [leadingBlanks_append_trimStart]

/-- A text that begins with no blank begins with a run. -/
theorem exists_run_of_begins (h : Begins s) :
    ∃ word after, s = word ++ after ∧ word ≠ [] ∧ Ink word ∧ Stops after ∧
      runs s = word :: runs after := by
  obtain ⟨c, rest, rfl, hc⟩ := h
  have hsplit : c :: rest = (c :: rest).takeWhile isInk ++ (c :: rest).dropWhile isInk :=
    List.takeWhile_append_dropWhile.symm
  have hne : (c :: rest).takeWhile isInk ≠ [] := by simp [isInk, hc]
  have hink := ink_takeWhile (c :: rest)
  have hstops := stops_dropWhile_isInk (c :: rest)
  refine ⟨_, _, hsplit, hne, hink, hstops, ?_⟩
  conv_lhs => rw [hsplit]
  rw [runs_append_of_stops hstops, runs_of_ink hink hne, List.singleton_append]

theorem runs_eq_nil_iff : runs s = [] ↔ Blank s := by
  constructor
  · intro h
    rcases all_or_exists_first isBlank s with hblank | ⟨front, c, rest, rfl, hfront, hc⟩
    · exact hblank
    · obtain ⟨word, after, -, -, -, -, hruns⟩ := exists_run_of_begins ⟨c, rest, rfl, hc⟩
      rw [runs_blank_append hfront, hruns] at h
      cases h
  · exact runs_of_blank

/-- **The first run of a text**, and what is behind it: nothing, or a gap and the other runs. -/
theorem trim_of_runs_eq_cons {word : Text} {others : List Text} (h : runs s = word :: others) :
    word ≠ [] ∧ Ink word ∧ ∃ after, runs after = others ∧ (others = [] → trim s = word) ∧
      (others ≠ [] → ∃ gap, gap ≠ [] ∧ Blank gap ∧ trim s = word ++ (gap ++ trim after)) := by
  have hbegins : Begins (trimStart s) := by
    cases hs : trimStart s with
    | nil =>
      rw [runs_eq_nil_iff.mpr (trimStart_eq_nil_iff.mp hs)] at h
      cases h
    | cons c rest =>
      exact ⟨c, rest, rfl, head?_dropWhile_eq_false (by rw [← trimStart, hs]; rfl)⟩
  obtain ⟨word', after, hs, hne, hink, hstops, hruns⟩ := exists_run_of_begins hbegins
  rw [← runs_blank_append (blank_leadingBlanks s), leadingBlanks_append_trimStart, h] at hruns
  obtain ⟨rfl, hothers⟩ := List.cons.inj hruns
  refine ⟨hne, hink, after, hothers.symm, fun hnil => ?_, fun hcons => ?_⟩
  · rw [trim, hs, trimEnd_append_blank (runs_eq_nil_iff.mp (hothers.symm.trans hnil)),
      trimEnd_of_ink hink]
  · have hafter : ¬ Blank after := fun hblank => hcons (hothers.trans (runs_eq_nil_iff.mpr hblank))
    refine ⟨leadingBlanks after, ?_, blank_leadingBlanks after, ?_⟩
    · cases after with
      | nil => exact absurd blank_nil hafter
      | cons c after => simp [leadingBlanks, hstops c rfl]
    · have hrest : ¬ Blank (trimStart after) := fun hblank => by
        refine hafter ?_
        rw [← leadingBlanks_append_trimStart after]
        exact (blank_leadingBlanks after).append hblank
      conv_lhs => rw [trim, hs, ← leadingBlanks_append_trimStart after]
      rw [← List.append_assoc, trimEnd_append hrest, List.append_assoc]
      rfl

/-! ### Texts that differ in their gaps -/

/-- **The same text but for its gaps**, which hold other blanks. -/
inductive Alike : Text → Text → Prop
  | nil : Alike [] []
  | ink {c : Char} {s s' : Text} : isBlank c = false → Alike s s' → Alike (c :: s) (c :: s')
  | gap {gap gap' s s' : Text} : gap ≠ [] → gap' ≠ [] → Blank gap → Blank gap' → Alike s s' →
      Alike (gap ++ s) (gap' ++ s')

namespace Alike

theorem symm (h : Alike s s') : Alike s' s := by
  induction h with
  | nil => exact .nil
  | ink hc _ ih => exact .ink hc ih
  | gap hne hne' hgap hgap' _ ih => exact .gap hne' hne hgap' hgap ih

theorem append (h : Alike s s') (ht : Alike t t') : Alike (s ++ t) (s' ++ t') := by
  induction h with
  | nil => exact ht
  | ink hc _ ih => exact .ink hc ih
  | gap hne hne' hgap hgap' _ ih =>
    rw [List.append_assoc, List.append_assoc]
    exact .gap hne hne' hgap hgap' ih

theorem of_ink (h : Ink s) : Alike s s := by
  induction s with
  | nil => exact .nil
  | cons c s ih =>
    obtain ⟨hc, hs⟩ := List.forall_mem_cons.mp h
    exact .ink hc (ih hs)

theorem eq_of_ink (h : Alike s s') (hs : Ink s) : s' = s := by
  induction h with
  | nil => rfl
  | ink _ _ ih => rw [ih (List.forall_mem_cons.mp hs).2]
  | gap hne _ hgap _ _ _ =>
    obtain ⟨c, gap, rfl⟩ := List.exists_cons_of_ne_nil hne
    have := hs c (by simp)
    rw [hgap c List.mem_cons_self] at this
    cases this

theorem eq_nil_iff (h : Alike s s') : s = [] ↔ s' = [] := by
  cases h with
  | nil => exact Iff.rfl
  | ink => simp
  | gap hne hne' => simp [hne, hne']

theorem blank (h : Alike s s') (hs : Blank s) : Blank s' := by
  induction h with
  | nil => exact hs
  | ink hc _ _ =>
    rw [hs _ List.mem_cons_self] at hc
    cases hc
  | gap _ _ _ hgap' _ ih => exact hgap'.append (ih fun c hc => hs c (List.mem_append_right _ hc))

theorem stops (h : Alike s s') (hs : Stops s) : Stops s' := by
  cases h with
  | nil => exact hs
  | ink hc =>
    rw [hs _ rfl] at hc
    cases hc
  | gap _ hne' _ hgap' =>
    obtain ⟨c, gap', rfl⟩ := List.exists_cons_of_ne_nil hne'
    rintro d ⟨⟩
    exact hgap' c List.mem_cons_self

theorem squeeze_eq (h : Alike s s') : squeeze s = squeeze s' := by
  induction h with
  | nil => rfl
  | @ink c s s' _ _ ih =>
    rw [← List.singleton_append, squeeze_append, ih, ← squeeze_append, List.singleton_append]
  | gap _ _ hgap hgap' _ ih =>
    rw [squeeze_append, squeeze_append, squeeze_of_blank hgap, squeeze_of_blank hgap', ih]

/-- **A text is split at a character that is no blank** as a text is that is alike. -/
theorem split (hc : isBlank c = false) (h : Alike (s ++ c :: t) s') :
    ∃ u v, s' = u ++ c :: v ∧ Alike s u ∧ Alike t v := by
  generalize he : s ++ c :: t = whole at h
  induction h generalizing s with
  | nil => simp at he
  | @ink d rest rest' hd hrest ih =>
    cases s with
    | nil =>
      obtain ⟨rfl, rfl⟩ := List.cons.inj he
      exact ⟨[], rest', rfl, .nil, hrest⟩
    | cons e s =>
      obtain ⟨rfl, hrest⟩ := List.cons.inj he
      obtain ⟨u, v, rfl, hs, ht⟩ := ih hrest
      exact ⟨e :: u, v, rfl, .ink hd hs, ht⟩
  | @gap gap gap' rest rest' hne hne' hgap hgap' hrest ih =>
    -- the character stands behind the gap
    obtain ⟨w, rfl, hw⟩ : ∃ w, s = gap ++ w ∧ w ++ c :: t = rest := by
      rcases List.append_eq_append_iff.mp he with ⟨w, rfl, hw⟩ | ⟨w, rfl, hw⟩
      · cases w with
        | nil => exact ⟨[], by simp, hw⟩
        | cons d w =>
          obtain ⟨rfl, -⟩ := List.cons.inj hw
          rw [hgap c (by simp)] at hc
          cases hc
      · exact ⟨w, rfl, hw.symm⟩
    obtain ⟨u, v, rfl, hs, ht⟩ := ih hw
    exact ⟨gap' ++ u, v, by simp, .gap hne hne' hgap hgap' hs, ht⟩

/-- A text without blanks in front stays. -/
theorem of_ink_append (hs : Ink s) (h : Alike (s ++ t) s') : ∃ v, s' = s ++ v ∧ Alike t v := by
  induction s generalizing s' with
  | nil => exact ⟨s', rfl, h⟩
  | cons c s ih =>
    obtain ⟨hc, hs⟩ := List.forall_mem_cons.mp hs
    obtain ⟨u, v, rfl, hu, hv⟩ := split (s := []) hc h
    obtain rfl := hu.eq_nil_iff.mp rfl
    obtain ⟨w, rfl, hw⟩ := ih hs hv
    exact ⟨w, rfl, hw⟩

/-- A gap in front stays a gap. -/
theorem of_blank_append (hgap : Blank gap) (hs : Begins s) (h : Alike (gap ++ s) s') :
    ∃ gap' v, s' = gap' ++ v ∧ Blank gap' ∧ (gap = [] ↔ gap' = []) ∧ Begins v ∧ Alike s v := by
  obtain ⟨c, rest, rfl, hc⟩ := hs
  obtain ⟨u, v, rfl, hu, hv⟩ := split hc h
  exact ⟨u, c :: v, rfl, hu.blank hgap, hu.eq_nil_iff, ⟨c, v, rfl, hc⟩, .ink hc hv⟩

/-- **Texts with the same runs** differ in their gaps and in the blanks around them. -/
theorem of_runs (h : runs s = runs s') : Alike (trim s) (trim s') := by
  generalize hruns : runs s = words at h
  induction words generalizing s s' with
  | nil =>
    have hblank (s : Text) (hs : Blank s) : trim s = [] := by
      rw [trim, trimStart_eq_nil hs]
      rfl
    rw [hblank s (runs_eq_nil_iff.mp hruns), hblank s' (runs_eq_nil_iff.mp h.symm)]
    exact .nil
  | cons word words ih =>
    obtain ⟨-, hink, after, hafter, hlast, hmore⟩ := trim_of_runs_eq_cons hruns
    obtain ⟨-, -, after', hafter', hlast', hmore'⟩ := trim_of_runs_eq_cons h.symm
    by_cases hwords : words = []
    · rw [hlast hwords, hlast' hwords]
      exact .of_ink hink
    · obtain ⟨gap, hne, hgap, hs⟩ := hmore hwords
      obtain ⟨gap', hne', hgap', hs'⟩ := hmore' hwords
      rw [hs, hs']
      exact (Alike.of_ink hink).append (.gap hne hne' hgap hgap' (ih hafter hafter'.symm))

end Alike

end GridText.Text
