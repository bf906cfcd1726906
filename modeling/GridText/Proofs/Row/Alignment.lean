import GridText.Proofs.Row.Writing
import GridText.Proofs.Text.Runs

/-! # Alignment: rows that differ in their blanks

Two lines with the same runs are cut into tokens that differ in their gaps alone (`tokens_of_runs`).
A call stays a call when its gaps change, and where no call begins none does in the other line: it
would be one in the first line as well. Under rules with a comma for a separator the blanks of an
entry are no part of its items, and those of a size stand between the arguments of a `minmax`, so the
two lines are read as the same cells behind sizes that are alike, or refused alike
(`Row.readText_of_runs`). -/

namespace GridText

open Text (Begins Blank EndsInInk Ink Stops runs)

variable {rules : Rules} {s s' token token' after : Text}

/-! ### Faults -/

/-- The same cause at the same place, for texts that may differ. -/
def Defect.Alike (d d' : Defect) : Prop :=
  d.kind = d'.kind ∧ { d.details with text := none } = { d'.details with text := none }

theorem Defect.Alike.refl (d : Defect) : d.Alike d := ⟨rfl, rfl⟩

/-- The same fault, for texts that may differ. -/
inductive Fault.Alike : Fault → Fault → Prop
  | defect {d d' : Defect} : d.Alike d' → Alike (.defect d) (.defect d')
  | emptySeparator : Alike .emptySeparator .emptySeparator

theorem Fault.Alike.refl (f : Fault) : f.Alike f := by
  cases f with
  | defect d => exact .defect (.refl d)
  | emptySeparator => exact .emptySeparator

/-! ### Tokens -/

namespace Token

open Text (Alike)

theorem Arguments.alike (h : Arguments s) (hs : Alike s s') : Arguments s' := by
  induction h generalizing s' with
  | @last a hne ha =>
    have hink : Ink (a ++ [')']) :=
      Ink.append (fun c hc => isInk_of_isArgumentChar (ha c hc)) (Text.ink_singleton rfl)
    rw [hs.eq_of_ink hink]
    exact .last hne ha
  | @more a gap rest hne ha hcomma hgap hblank hrest ih =>
    obtain ⟨behind, rfl, hbehind⟩ :=
      Alike.of_ink_append (fun c hc => isInk_of_isArgumentChar (ha c hc)) hs
    obtain ⟨gap', rest', rfl, hblank', hnil, -, hrest'⟩ :=
      hbehind.of_blank_append hblank hrest.begins
    exact .more hne ha hcomma (fun he => hgap (hnil.mpr he)) hblank' (ih hrest')

/-- **A call stays a call** when its gaps change. -/
theorem IsCall.alike (h : IsCall token) (hs : Alike token token') : IsCall token' := by
  obtain ⟨name, inner, rfl, hne, hname, hinner⟩ := h
  rw [List.append_cons] at hs
  obtain ⟨inner', rfl, hinner'⟩ := Alike.of_ink_append (ink_open hname) hs
  exact ⟨name, inner', by simp, hne, hname, hinner.alike hinner'⟩

/-- A text is split behind a token as a text is that is alike. -/
theorem split_of_concat (h : EndsInInk token) (hs : Alike (token ++ after) s') :
    ∃ token' after', s' = token' ++ after' ∧ Alike token token' ∧ Alike after after' := by
  obtain ⟨front, c, rfl, hc⟩ := h
  rw [List.append_assoc, List.singleton_append] at hs
  obtain ⟨u, v, rfl, hu, hv⟩ := hs.split hc
  exact ⟨u ++ [c], v, by simp, hu.append (.of_ink (Text.ink_singleton hc)), hv⟩

theorem call?_eq_none_of_alike (h : call? s = none) (hs : Alike s s') : call? s' = none := by
  rw [Option.eq_none_iff_forall_ne_some]
  rintro ⟨token', after'⟩ hfound
  obtain ⟨hcall, rfl⟩ := call?_eq_some_iff.mp hfound
  -- a call in one text is a call in the other
  obtain ⟨token, after, rfl, htoken, -⟩ := split_of_concat hcall.exists_concat_ink hs.symm
  rw [call?_eq_some_iff.mpr ⟨hcall.alike htoken, rfl⟩] at h
  cases h

/-- **The token at the front** of a text that is alike. -/
theorem Front.alike (h : Front token after) (hs : Alike (token ++ after) s') :
    ∃ token' after', s' = token' ++ after' ∧ Alike token token' ∧ Alike after after' ∧
      Front token' after' := by
  obtain ⟨token', after', rfl, htoken, hafter⟩ := split_of_concat h.exists_concat_ink hs
  refine ⟨token', after', rfl, htoken, hafter, ?_⟩
  cases h with
  | call hcall => exact .call (hcall.alike htoken)
  | run hne hink hstops hnone =>
    obtain rfl := htoken.eq_of_ink hink
    exact .run hne hink (hafter.stops hstops) (call?_eq_none_of_alike hnone hs)

/-- Two tokens that differ in their gaps. -/
structure Aligned (token token' : Text) : Prop where
  alike : Alike token token'
  alone : tokens token = [token]
  alone' : tokens token' = [token']

theorem tokens_of_alike (hs : Alike s s') : List.Forall₂ Aligned (tokens s) (tokens s') := by
  generalize hfound : tokens s = found
  induction found generalizing s s' with
  | nil =>
    rw [tokens_eq_nil_iff.mpr (hs.blank (tokens_eq_nil_iff.mp hfound))]
    exact .nil
  | cons token found ih =>
    obtain ⟨gap, after, rfl, hgap, hfront, hafter⟩ := tokens_eq_cons_iff.mp hfound
    obtain ⟨c, word, rfl, hc⟩ := hfront.begins
    obtain ⟨gap', behind, rfl, hgap', -, -, hbehind⟩ :=
      hs.of_blank_append hgap ⟨c, word ++ after, rfl, hc⟩
    obtain ⟨token', after', rfl, htoken, hafter', hfront'⟩ := hfront.alike hbehind
    rw [tokens_eq_cons_iff.mpr ⟨gap', after', rfl, hgap', hfront', rfl⟩]
    exact .cons ⟨htoken, hfront.tokens_eq, hfront'.tokens_eq⟩ (ih hafter' hafter)

/-- **Lines with the same runs** are cut into the same tokens but for the gaps in these. -/
theorem tokens_of_runs (h : runs s = runs s') : List.Forall₂ Aligned (tokens s) (tokens s') := by
  rw [← tokens_trim s, ← tokens_trim s']
  exact tokens_of_alike (.of_runs h)

theorem scan_of_runs (h : runs s = runs s') :
    Except.Related Defect.Alike (List.Forall₂ Aligned) (scan s) (scan s') := by
  have haligned := tokens_of_runs h
  unfold scan
  cases hfound : tokens s with
  | nil =>
    rw [hfound] at haligned
    rw [List.forall₂_nil_left_iff.mp haligned]
    exact .error ⟨rfl, rfl⟩
  | cons token found =>
    rw [hfound] at haligned
    obtain ⟨token', found', htoken, hrest, he⟩ := List.forall₂_cons_left_iff.mp haligned
    rw [he]
    exact .ok (.cons htoken hrest)

end Token

open Token (Aligned tokens)

/-! ### Entries -/

/-- **Under a comma the items of an entry** do not depend on its gaps. -/
theorem Cell.parts_of_aligned (hsep : rules.separator = [',']) (h : Aligned token token') :
    parts rules token = parts rules token' := by
  have hspread : Text.Spread ',' token := Token.spread_of_mem_tokens (s := token) (by simp [h.alone])
  have hspread' : Text.Spread ',' token' :=
    Token.spread_of_mem_tokens (s := token') (by simp [h.alone'])
  rw [parts_eq_splitOn_squeeze hsep hspread, parts_eq_splitOn_squeeze hsep hspread',
    h.alike.squeeze_eq]

/-- Under a comma the items of an entry have no blanks. -/
theorem Cell.ink_of_mem_ofEntry (hsep : rules.separator = [',']) (h : token ∈ tokens s) {item : Text}
    (hitem : item ∈ ofEntry rules token) : Ink item := by
  have hspread := Token.spread_of_mem_tokens h
  have hpart : item ∈ Text.splitOn [','] (Text.squeeze token) := by
    rw [← parts_eq_splitOn_squeeze hsep hspread]
    unfold ofEntry ofParts at hitem
    split_ifs at hitem
    · cases hitem
    · exact hitem
  exact fun c hc => Text.ink_squeeze token c ((Text.infix_of_mem_splitOn hpart).subset hc)

/-! ### Sizes -/

namespace Track

theorem minmaxText_of_alike {first gap second : Text} (hfirst : Ink first) (hgap : Blank gap)
    (hsecond : Ink second) (hs : Text.Alike (minmaxText first gap second) s') :
    ∃ gap', s' = minmaxText first gap' second ∧ Blank gap' ∧ (gap = [] ↔ gap' = []) := by
  have hfront : Ink ("minmax(".toList ++ (first ++ [','])) := by
    have hname : Ink "minmax(".toList := by decide
    exact hname.append (hfirst.append (Text.ink_singleton rfl))
  have hlast : Ink (second ++ [')']) := hsecond.append (Text.ink_singleton rfl)
  unfold minmaxText at hs ⊢
  rw [List.append_assoc] at hs
  obtain ⟨behind, rfl, hbehind⟩ := Text.Alike.of_ink_append hfront hs
  obtain ⟨gap', last, rfl, hgap', hnil, -, hlast'⟩ :=
    hbehind.of_blank_append hgap (hlast.begins (by simp))
  rw [hlast'.eq_of_ink hlast]
  exact ⟨gap', (List.append_assoc _ _ _).symm, hgap', hnil⟩

theorem minmaxArguments?_of_alike {arguments : Text × Text} (hs : Text.Alike s s')
    (h : minmaxArguments? s = some arguments) : minmaxArguments? s' = some arguments := by
  obtain ⟨first, second⟩ := arguments
  obtain ⟨gap, rfl, hne, hfirst, hgap, hblank, hne', hsecond⟩ := minmaxArguments?_eq_some_iff.mp h
  obtain ⟨gap', rfl, hblank', hnil⟩ := minmaxText_of_alike hfirst hblank hsecond hs
  exact minmaxArguments?_eq_some_iff.mpr
    ⟨gap', rfl, hne, hfirst, fun he => hgap (hnil.mpr he), hblank', hne', hsecond⟩

/-- A text with blanks that is no `minmax` is no size at all. -/
theorem classify_of_not_ink (h : ¬ Ink s) (hm : minmaxArguments? s = none) :
    classify s = .error (.invalidTrackSize s) := by
  have hfit : fitContentArgument? s = none := by
    rw [Option.eq_none_iff_forall_ne_some]
    intro argument hs
    obtain ⟨rfl, -, hink⟩ := fitContentArgument?_eq_some_iff.mp hs
    exact h (ink_fitContentText hink)
  have hsimple : ¬ Simple s := fun hs => h hs.ink
  rw [classify_of_no_call hm hfit, List.findSome?_eq_none_iff.mpr]
  · rfl
  · intro form hform
    rcases List.mem_append.mp hform with hform | hform
    · obtain ⟨unit, hu, rfl⟩ := List.mem_map.mp hform
      exact if_neg fun hs => hsimple (.measure hu ((isMeasure_iff hu).mp hs))
    · obtain ⟨word, hw, rfl⟩ := List.mem_map.mp hform
      refine if_neg fun hs => hsimple ?_
      rw [show s = word.name.toList from beq_iff_eq.mp hs]
      exact .keyword hw

/-- **Texts that differ in their gaps** are both sizes, or are refused alike. -/
theorem classify_of_alike (hs : Text.Alike s s') :
    Except.Related Defect.Alike (fun _ _ => Size s ∧ Size s') (classify s) (classify s') := by
  by_cases hink : Ink s
  · obtain rfl := hs.eq_of_ink hink
    cases h : classify s' with
    | ok kind => exact .ok ⟨size_of_classify h, size_of_classify h⟩
    | error d => exact .error (.refl d)
  have hink' : ¬ Ink s' := fun h => hink (hs.symm.eq_of_ink h ▸ h)
  cases hm : minmaxArguments? s with
  | none =>
    have hm' : minmaxArguments? s' = none := by
      rw [Option.eq_none_iff_forall_ne_some]
      intro arguments h
      rw [minmaxArguments?_of_alike hs.symm h] at hm
      cases hm
    rw [classify_of_not_ink hink hm, classify_of_not_ink hink' hm']
    exact .error ⟨rfl, rfl⟩
  | some arguments =>
    obtain ⟨first, second⟩ := arguments
    have h := classify_of_minmaxArguments? hm
    have h' := classify_of_minmaxArguments? (minmaxArguments?_of_alike hs hm)
    split_ifs at h h'
    · rw [h, h']
      exact .ok ⟨size_of_classify h, size_of_classify h'⟩
    · rw [h, h']
      exact .error ⟨rfl, rfl⟩

/-- Two sizes that differ in their gaps. -/
structure SizeAlike (size size' : Text) : Prop where
  alike : Text.Alike size size'
  size : Size size
  size' : Size size'

theorem SizeAlike.symm {size size' : Text} (h : SizeAlike size size') : SizeAlike size' size :=
  ⟨h.alike.symm, h.size', h.size⟩

/-- **The same size up to the blanks in a `minmax`.** -/
inductive SameSize : Text → Text → Prop
  | same (size : Text) : SameSize size size
  | minmax {first gap gap' second : Text} : gap ≠ [] → gap' ≠ [] → Blank gap → Blank gap' →
      SameSize (minmaxText first gap second) (minmaxText first gap' second)

theorem SizeAlike.sameSize {size size' : Text} (h : SizeAlike size size') : SameSize size size' := by
  obtain ⟨hs, hsize, -⟩ := h
  cases hsize with
  | simple hsimple =>
    rw [hs.eq_of_ink hsimple.ink]
    exact .same size
  | minmax hfirst hne hblank hsecond =>
    obtain ⟨gap', rfl, hblank', hnil⟩ := minmaxText_of_alike hfirst.ink hblank hsecond.ink hs
    exact .minmax hne (fun he => hne (hnil.mpr he)) hblank hblank'
  | fitContent hfit =>
    rw [hs.eq_of_ink (ink_fitContentText hfit.simple.ink)]
    exact .same _

end Track

/-! ### Rows -/

namespace Row

/-- **Two rows with the same item cells** behind sizes that differ in their gaps. -/
inductive Alike : Row → Row → Prop
  | intro {size size' : Text} {cells : List Cell} : Track.SizeAlike size size' →
      (∀ item ∈ cells.flatten, Ink item) → Alike ([size] :: cells) ([size'] :: cells)

theorem Alike.symm {row row' : Row} (h : Alike row row') : Alike row' row := by
  cases h with
  | intro hsize hcells => exact .intro hsize.symm hcells

theorem Alike.cells_eq {row row' : Row} (h : Alike row row') : row.cells = row'.cells := by
  cases h with
  | intro => rfl

theorem Alike.length_eq {row row' : Row} (h : Alike row row') : row.length = row'.length := by
  cases h with
  | intro => rfl

theorem readCells_of_aligned (hsep : rules.separator = [',']) {entries entries' : List Text}
    (h : List.Forall₂ Aligned entries entries') (n : Int) (before : List Cell) :
    readCells rules n before entries = readCells rules n before entries' := by
  induction h generalizing before with
  | nil => rfl
  | cons hentry _ ih =>
    unfold readCells Cell.read
    rw [Cell.parts_of_aligned hsep hentry]
    refine congrArg _ (funext fun cell => ?_)
    simp only [ih]

theorem read_of_aligned (hsep : rules.separator = [',']) {found found' : List Text}
    (h : List.Forall₂ Aligned found found') (n : Int) :
    Except.Related Fault.Alike Alike (read rules n found) (read rules n found') := by
  cases h with
  | nil => exact .error (.refl _)
  | @cons size size' entries entries' hsize hentries =>
    have hclassify := Track.classify_of_alike hsize.alike
    refine (hclassify.mapError fun _ _ hd => Fault.Alike.defect hd).bind ?_
    rintro kind kind' - - ⟨hfirst, hfirst'⟩
    have hcells := readCells_of_aligned hsep hentries n []
    refine (Except.Related.of_eq Fault.Alike.refl hcells).bind ?_
    rintro cells _ hread - rfl
    refine .ok (.intro ⟨hsize.alike, hfirst, hfirst'⟩ ?_)
    obtain ⟨-, -, -, rfl⟩ := (readCells_eq_ok_iff unbroken_nil).mp hread
    intro item hitem
    obtain ⟨cell, hcell, hitem⟩ := List.mem_flatten.mp hitem
    obtain ⟨entry, hentry, rfl⟩ := List.mem_map.mp hcell
    have halone : ∀ entry ∈ entries, tokens entry = [entry] :=
      ((List.forall₂_and_left entries entries').mp
        (hentries.imp fun _ _ he => ⟨he.alone, he⟩)).1
    have hmem : entry ∈ tokens entry := by simp [halone entry hentry]
    exact Cell.ink_of_mem_ofEntry hsep hmem hitem

/-- **Lines with the same runs** are read as the same cells behind sizes that are alike, or are
refused alike. -/
theorem readText_of_runs (hsep : rules.separator = [',']) {line line' : Text}
    (h : runs line = runs line') (n : Int) :
    Except.Related Fault.Alike Alike (readText rules n line) (readText rules n line') := by
  have hscan := (Token.scan_of_runs h).mapError fun _ _ hd => Fault.Alike.defect hd
  exact hscan.bind fun found found' _ _ hfound => read_of_aligned hsep hfound n

end Row

end GridText
