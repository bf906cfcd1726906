import GridText.Proofs.Text.Pattern
import GridText.Proofs.Track.Grammar
import Mathlib.Data.List.Perm.Basic

/-! # Track sizes: kinds and refusals

A form of the grammar looks at how a text is written and then at the arguments of a call. `Shaped`
is the first half, `HasKind` both. A text is shaped as one kind at most, so no two forms fit it, and
the first form that fits is the only one.

* `MinmaxParts.unique`: a `minmax` has its parts in one way.
* `Shaped.unique`: no text is shaped as two kinds.
* `spells_patternOf_iff`: the shapes are what the patterns of the kinds spell.
* `classifyBy_of_perm`: forms of which no two fit a text may be asked in any order.
* `classify_eq_ok_iff`, `classify_eq_error_iff`: the kind of a text, and what a text without one is
  refused for.
* `sizes_have_one_kind`: all of it for a text. -/

namespace GridText.Track

open Text (Blank Ink)

variable {s : Text} {kind : Kind}

/-! ### Shapes -/

/-- **A `minmax` by its parts**: two arguments without blanks, and blanks between them. -/
@[ext] structure MinmaxParts where
  first : Text
  gap : Text
  second : Text
  first_ne_nil : first ≠ []
  ink_first : Ink first
  gap_ne_nil : gap ≠ []
  blank_gap : Blank gap
  second_ne_nil : second ≠ []
  ink_second : Ink second

/-- The `minmax` as it is written. -/
def MinmaxParts.text (m : MinmaxParts) : Text := minmaxText m.first m.gap m.second

/-- **The text is written as a size of this kind**, whatever the arguments of a call are. -/
inductive Shaped : Kind → Text → Prop
  | measure {unit : Kind} {s : Text} : unit ∈ measures → Measure unit s → Shaped unit s
  | keyword {word : Kind} : word ∈ keywords → Shaped word word.name.toList
  | minmax (m : MinmaxParts) : Shaped .minmax m.text
  | fitContent {argument : Text} : argument ≠ [] → Ink argument →
      Shaped .fitContent (fitContentText argument)

/-- **The text is a size of this kind.** -/
inductive HasKind : Text → Kind → Prop
  | measure {unit : Kind} {s : Text} : unit ∈ measures → Measure unit s → HasKind s unit
  | keyword {word : Kind} : word ∈ keywords → HasKind word.name.toList word
  | minmax {first gap second : Text} : Simple first → gap ≠ [] → Blank gap → Simple second →
      HasKind (minmaxText first gap second) .minmax
  | fitContent {argument : Text} : Fit argument → HasKind (fitContentText argument) .fitContent

theorem HasKind.shaped (h : HasKind s kind) : Shaped kind s := by
  cases h with
  | measure hu hm => exact .measure hu hm
  | keyword hw => exact .keyword hw
  | @minmax first gap second hf hne hgap hs =>
    exact .minmax ⟨first, gap, second, hf.plain.1, hf.ink, hne, hgap, hs.plain.1, hs.ink⟩
  | fitContent hf => exact .fitContent hf.ink.1 hf.ink.2

theorem minmaxArguments?_iff {first second : Text} :
    minmaxArguments? s = some (first, second) ↔
      ∃ m : MinmaxParts, m.text = s ∧ m.first = first ∧ m.second = second := by
  rw [minmaxArguments?_eq_some_iff]
  constructor
  · rintro ⟨gap, rfl, hne, hink, hgne, hgap, hne', hink'⟩
    exact ⟨⟨first, gap, second, hne, hink, hgne, hgap, hne', hink'⟩, rfl, rfl, rfl⟩
  · rintro ⟨m, rfl, rfl, rfl⟩
    exact ⟨m.gap, rfl, m.first_ne_nil, m.ink_first, m.gap_ne_nil, m.blank_gap, m.second_ne_nil,
      m.ink_second⟩

/-- **A `minmax` has its parts in one way.** -/
theorem MinmaxParts.unique {m m' : MinmaxParts} (h : m.text = m'.text) : m = m' := by
  have hread := minmaxArguments?_iff.mpr ⟨m, rfl, rfl, rfl⟩
  have hread' := minmaxArguments?_iff.mpr ⟨m', h.symm, rfl, rfl⟩
  obtain ⟨hfirst, hsecond⟩ := Prod.mk.inj (Option.some.inj (hread.symm.trans hread'))
  unfold text minmaxText at h
  rw [hfirst, hsecond] at h
  exact MinmaxParts.ext hfirst (List.append_cancel_left (List.append_cancel_right h)) hsecond

/-! ### One shape at most -/

/-- What a keyword begins with is no digit. -/
theorem head_of_mem_keywords : ∀ word ∈ keywords, ∀ c ∈ word.name.toList.head?,
    isDecimalDigit c = false := by
  have h : ∀ word ∈ keywords, word.name.toList.head?.all (!isDecimalDigit ·) = true := by decide
  simpa [Option.all_eq_true] using h

theorem Measure.unique {unit unit' : Kind} (hu : unit ∈ measures) (hu' : unit' ∈ measures)
    (h : Measure unit s) (h' : Measure unit' s) : unit = unit' := by
  have hname : ∀ u ∈ measures, ∀ v ∈ measures, u.name.toList = v.name.toList → u = v := by decide
  obtain ⟨digits, -, hdigits, rfl⟩ := h
  obtain ⟨digits', -, hdigits', he⟩ := h'
  exact hname unit hu unit' hu' (append_inj_of_stop hdigits hdigits'
    (name_of_mem_measures unit hu).1 (name_of_mem_measures unit' hu').1 he).2

theorem Measure.ne_keyword {unit word : Kind} (h : Measure unit s) (hw : word ∈ keywords) :
    s ≠ word.name.toList := by
  obtain ⟨digits, hne, hdigits, rfl⟩ := h
  obtain ⟨d, digits, rfl⟩ := List.exists_cons_of_ne_nil hne
  intro he
  have hd := head_of_mem_keywords word hw d (by rw [← he]; rfl)
  rw [hdigits d List.mem_cons_self] at hd
  cases hd

theorem Simple.not_open (h : Simple s) : '(' ∉ s := fun hc => (h.plain.2 '(' hc).2 (by decide)

/-- A text with an opening bracket is a call, and its kind shows in its first letter. -/
theorem Shaped.of_open (h : Shaped kind s) (hopen : '(' ∈ s) :
    (kind = .minmax ∧ s.head? = some 'm') ∨ (kind = .fitContent ∧ s.head? = some 'f') := by
  cases h with
  | measure hu hm => exact absurd hopen (Simple.measure hu hm).not_open
  | keyword hw => exact absurd hopen (Simple.keyword hw).not_open
  | minmax m => exact Or.inl ⟨rfl, head?_minmaxText _ _ _⟩
  | fitContent => exact Or.inr ⟨rfl, head?_fitContentText _⟩

theorem Shaped.of_not_open (h : Shaped kind s) (hopen : '(' ∉ s) :
    (kind ∈ measures ∧ Measure kind s) ∨ (kind ∈ keywords ∧ s = kind.name.toList) := by
  cases h with
  | measure hu hm => exact Or.inl ⟨hu, hm⟩
  | keyword hw => exact Or.inr ⟨hw, rfl⟩
  | minmax m => exact absurd (open_mem_minmaxText _ _ _) hopen
  | fitContent => exact absurd (open_mem_fitContentText _) hopen

/-- **No text is shaped as two kinds.** -/
theorem Shaped.unique {kind' : Kind} (h : Shaped kind s) (h' : Shaped kind' s) : kind = kind' := by
  have hname : ∀ v ∈ keywords, ∀ w ∈ keywords, v.name.toList = w.name.toList → v = w := by decide
  by_cases hopen : '(' ∈ s
  · rcases h.of_open hopen with ⟨rfl, hs⟩ | ⟨rfl, hs⟩ <;>
      rcases h'.of_open hopen with ⟨rfl, hs'⟩ | ⟨rfl, hs'⟩
    · rfl
    · cases hs.symm.trans hs'
    · cases hs.symm.trans hs'
    · rfl
  · rcases h.of_not_open hopen with ⟨hu, hm⟩ | ⟨hw, hs⟩ <;>
      rcases h'.of_not_open hopen with ⟨hu', hm'⟩ | ⟨hw', hs'⟩
    · exact hm.unique hu hu' hm'
    · exact absurd hs' (hm.ne_keyword hw')
    · exact absurd hs (hm'.ne_keyword hw)
    · exact hname kind hw kind' hw' (hs.symm.trans hs')

/-! ### The shapes and the sizes of one kind -/

/-- A kind is a unit, a keyword or one of the two calls. -/
theorem kind_cases (kind : Kind) :
    kind ∈ measures ∨ kind ∈ keywords ∨ kind = .minmax ∨ kind = .fitContent := by
  cases kind <;> decide

theorem shaped_measure_iff (hu : kind ∈ measures) : Shaped kind s ↔ Measure kind s := by
  refine ⟨fun h => ?_, .measure hu⟩
  have hnot : ∀ u ∈ measures, u ∉ keywords := by decide
  cases h with
  | measure _ hm => exact hm
  | keyword hw => exact absurd hw (hnot kind hu)
  | minmax | fitContent => exact absurd hu (by decide)

theorem shaped_keyword_iff (hw : kind ∈ keywords) : Shaped kind s ↔ s = kind.name.toList := by
  refine ⟨fun h => ?_, fun h => h ▸ .keyword hw⟩
  have hnot : ∀ w ∈ keywords, w ∉ measures := by decide
  cases h with
  | measure hu => exact absurd hu (hnot kind hw)
  | keyword => rfl
  | minmax | fitContent => exact absurd hw (by decide)

theorem shaped_minmax_iff : Shaped .minmax s ↔ ∃ m : MinmaxParts, m.text = s := by
  refine ⟨fun h => ?_, fun ⟨m, hm⟩ => hm ▸ .minmax m⟩
  cases h with
  | measure h | keyword h => exact absurd h (by decide)
  | minmax m => exact ⟨m, rfl⟩

theorem shaped_fitContent_iff : Shaped .fitContent s ↔
    ∃ argument, s = fitContentText argument ∧ argument ≠ [] ∧ Ink argument := by
  refine ⟨fun h => ?_, fun ⟨_, hs, hne, hink⟩ => hs ▸ .fitContent hne hink⟩
  cases h with
  | measure h | keyword h => exact absurd h (by decide)
  | fitContent hne hink => exact ⟨_, rfl, hne, hink⟩

theorem MinmaxParts.hasKind_iff (m : MinmaxParts) :
    HasKind m.text .minmax ↔ Simple m.first ∧ Simple m.second := by
  refine ⟨fun h => ?_, fun h => .minmax h.1 m.gap_ne_nil m.blank_gap h.2⟩
  generalize hs : m.text = s at h
  cases h with
  | measure h | keyword h => exact absurd h (by decide)
  | @minmax first gap second hf hne hgap hs' =>
    obtain rfl : m = ⟨first, gap, second, hf.plain.1, hf.ink, hne, hgap, hs'.plain.1, hs'.ink⟩ :=
      MinmaxParts.unique hs
    exact ⟨hf, hs'⟩

theorem hasKind_fitContentText_iff {argument : Text} :
    HasKind (fitContentText argument) .fitContent ↔ Fit argument := by
  refine ⟨fun h => ?_, .fitContent⟩
  generalize hs : fitContentText argument = s at h
  cases h with
  | measure h | keyword h => exact absurd h (by decide)
  | fitContent hf =>
    unfold fitContentText at hs
    rwa [List.append_cancel_right (List.append_cancel_left hs)]

/-! ### Forms -/

/-- The form fits the text, whether it takes or refuses it. -/
def Form.Fits (form : Form) (s : Text) : Prop := (form s).isSome

/-- The form of a kind. -/
def formOf : Kind → Form
  | .minmax => Form.minmax
  | .fitContent => Form.fitContent
  | .auto => Form.keyword .auto
  | .minContent => Form.keyword .minContent
  | .maxContent => Form.keyword .maxContent
  | unit => Form.measure unit

/-- The kinds in the order in which their forms are asked. -/
def kinds : List Kind := [.minmax, .fitContent] ++ measures ++ keywords

theorem grammar_eq : grammar = kinds.map formOf := rfl

theorem mem_kinds (kind : Kind) : kind ∈ kinds := by cases kind <;> decide

theorem formOf_measure : ∀ unit ∈ measures, formOf unit = Form.measure unit := by
  simp [measures, formOf]

theorem formOf_keyword : ∀ word ∈ keywords, formOf word = Form.keyword word := by
  simp [keywords, formOf]

/-- What a text is refused for that is shaped as a kind without having it. -/
def refusal (s : Text) : Kind → Defect
  | .minmax => .invalidMinmax s
  | .fitContent => .invalidFitContent s
  | _ => .invalidTrackSize s

/-- **A form takes the sizes of its kind**, and refuses all else of their shape. -/
def Form.Decides (form : Form) (s : Text) (kind : Kind) : Prop :=
  ∀ r, form s = some r ↔ Shaped kind s ∧
    ((HasKind s kind ∧ r = .ok kind) ∨ (¬ HasKind s kind ∧ r = .error (refusal s kind)))

/-- The shape of a simple size leaves nothing to refuse. -/
theorem decides_simple {form : Form} {fits : Text → Bool} (hform : form = fun s =>
    if fits s then some (.ok kind) else none) (hfits : fits s = true ↔ Shaped kind s)
    (hkind : Shaped kind s → HasKind s kind) : form.Decides s kind := by
  intro r
  rw [hform, Option.ite_none_right_eq_some, hfits, Option.some.injEq]
  refine and_congr_right fun h => ?_
  simp [hkind h, eq_comm]

theorem decides_minmax (s : Text) : Form.minmax.Decides s .minmax := by
  intro r
  rw [shaped_minmax_iff]
  constructor
  · intro h
    obtain ⟨⟨first, second⟩, harguments, hr⟩ := Option.map_eq_some_iff.mp h
    obtain ⟨m, rfl, rfl, rfl⟩ := minmaxArguments?_iff.mp harguments
    refine ⟨⟨m, rfl⟩, ?_⟩
    rw [m.hasKind_iff, ← isSimple_iff, ← isSimple_iff, ← Bool.and_eq_true]
    simp only at hr
    split_ifs at hr with hsimple
    · exact Or.inl ⟨hsimple, hr.symm⟩
    · exact Or.inr ⟨hsimple, hr.symm⟩
  · rintro ⟨⟨m, rfl⟩, h⟩
    rw [m.hasKind_iff, ← isSimple_iff, ← isSimple_iff, ← Bool.and_eq_true] at h
    refine Option.map_eq_some_iff.mpr ⟨_, minmaxArguments?_iff.mpr ⟨m, rfl, rfl, rfl⟩, ?_⟩
    rcases h with ⟨hsimple, rfl⟩ | ⟨hsimple, rfl⟩
    · exact if_pos hsimple
    · exact if_neg hsimple

theorem decides_fitContent (s : Text) : Form.fitContent.Decides s .fitContent := by
  intro r
  rw [shaped_fitContent_iff]
  constructor
  · intro h
    obtain ⟨argument, hargument, hr⟩ := Option.map_eq_some_iff.mp h
    obtain ⟨rfl, hshape⟩ := fitContentArgument?_eq_some_iff.mp hargument
    refine ⟨⟨argument, rfl, hshape⟩, ?_⟩
    rw [hasKind_fitContentText_iff, ← isLengthOrPercentage_iff]
    split_ifs at hr with hfit
    · exact Or.inl ⟨hfit, hr.symm⟩
    · exact Or.inr ⟨hfit, hr.symm⟩
  · rintro ⟨⟨argument, rfl, hshape⟩, h⟩
    rw [hasKind_fitContentText_iff, ← isLengthOrPercentage_iff] at h
    refine Option.map_eq_some_iff.mpr ⟨_, fitContentArgument?_eq_some_iff.mpr ⟨rfl, hshape⟩, ?_⟩
    rcases h with ⟨hfit, rfl⟩ | ⟨hfit, rfl⟩
    · exact if_pos hfit
    · exact if_neg hfit

/-- **Every form decides the texts of its shape.** -/
theorem decides_formOf (s : Text) (kind : Kind) : (formOf kind).Decides s kind := by
  rcases kind_cases kind with hu | hw | rfl | rfl
  · refine decides_simple (formOf_measure kind hu) ?_ fun h => ?_
    · rw [isMeasure_iff hu, shaped_measure_iff hu]
    · exact .measure hu ((shaped_measure_iff hu).mp h)
  · refine decides_simple (formOf_keyword kind hw) ?_ fun h => ?_
    · rw [isKeyword, beq_iff_eq, shaped_keyword_iff hw]
    · exact (shaped_keyword_iff hw).mp h ▸ .keyword hw
  · exact decides_minmax s
  · exact decides_fitContent s

theorem fits_formOf_iff : (formOf kind).Fits s ↔ Shaped kind s := by
  rw [Form.Fits, Option.isSome_iff_exists]
  constructor
  · rintro ⟨r, h⟩
    exact ((decides_formOf s kind r).mp h).1
  · intro h
    by_cases hkind : HasKind s kind
    · exact ⟨_, (decides_formOf s kind _).mpr ⟨h, Or.inl ⟨hkind, rfl⟩⟩⟩
    · exact ⟨_, (decides_formOf s kind _).mpr ⟨h, Or.inr ⟨hkind, rfl⟩⟩⟩

/-- **No two forms of the grammar fit a text.** -/
theorem pairwise_grammar (s : Text) :
    grammar.Pairwise fun form form' => ¬ (form.Fits s ∧ form'.Fits s) := by
  have hkinds : kinds.Nodup := by decide
  rw [grammar_eq, List.pairwise_map]
  refine hkinds.imp fun hne ⟨h, h'⟩ => hne ?_
  exact (fits_formOf_iff.mp h).unique (fits_formOf_iff.mp h')

/-- **Forms of which no two fit a text may be asked in any order.** -/
theorem classifyBy_of_perm {forms forms' : List Form} (h : forms.Perm forms')
    (hone : forms.Pairwise fun form form' => ¬ (form.Fits s ∧ form'.Fits s)) :
    classifyBy forms s = classifyBy forms' s := by
  unfold classifyBy
  congr 1
  induction h with
  | nil => rfl
  | cons form _ ih => rw [List.findSome?_cons, List.findSome?_cons, ih hone.of_cons]
  | swap form form' forms =>
    have hnot := (List.pairwise_cons.mp hone).1 form List.mem_cons_self
    simp only [List.findSome?_cons]
    unfold Form.Fits at hnot
    cases hform : form s with
    | none => rfl
    | some r =>
      cases hform' : form' s with
      | none => rfl
      | some r' => exact absurd ⟨by simp [hform'], by simp [hform]⟩ hnot
  | trans h _ ih ih' =>
    have hsymm : ∀ {a b : Form}, ¬ (a.Fits s ∧ b.Fits s) → ¬ (b.Fits s ∧ a.Fits s) :=
      fun hab hba => hab hba.symm
    exact (ih hone).trans (ih' ((h.pairwise_iff hsymm).mp hone))

/-! ### Kinds and refusals -/

/-- **What a text that is no size is refused for**: for the arguments of the call that it is shaped
as, or as a whole. -/
inductive Refused : Text → Defect → Prop
  | minmax {s : Text} : Shaped .minmax s → Refused s (.invalidMinmax s)
  | fitContent {s : Text} : Shaped .fitContent s → Refused s (.invalidFitContent s)
  | other {s : Text} : ¬ Shaped .minmax s → ¬ Shaped .fitContent s →
      Refused s (.invalidTrackSize s)

theorem classify_of_formOf {r : Except Defect Kind} (h : formOf kind s = some r) :
    classify s = r := by
  rw [classify, classifyBy, grammar_eq]
  cases hfound : (kinds.map formOf).findSome? (· s) with
  | none =>
    have := List.findSome?_eq_none_iff.mp hfound _ (List.mem_map_of_mem (mem_kinds kind))
    rw [h] at this
    cases this
  | some r' =>
    obtain ⟨form, hform, hfits⟩ := List.exists_of_findSome?_eq_some hfound
    obtain ⟨kind', -, rfl⟩ := List.mem_map.mp hform
    have hshaped := ((decides_formOf s kind r).mp h).1
    obtain rfl := hshaped.unique ((decides_formOf s kind' r').mp hfits).1
    exact Option.some.inj (hfits.symm.trans h)

theorem classify_of_not_shaped (h : ∀ kind, ¬ Shaped kind s) :
    classify s = .error (.invalidTrackSize s) := by
  have hnone : (kinds.map formOf).findSome? (· s) = none := by
    rw [List.findSome?_eq_none_iff, List.forall_mem_map]
    intro kind _
    rw [← Option.not_isSome_iff_eq_none]
    exact fun hfits => h kind (fits_formOf_iff.mp hfits)
  rw [classify, classifyBy, grammar_eq, hnone]
  rfl

theorem HasKind.classify_eq (h : HasKind s kind) : classify s = .ok kind :=
  classify_of_formOf ((decides_formOf s kind _).mpr ⟨h.shaped, Or.inl ⟨h, rfl⟩⟩)

theorem classify_of_refused (hshaped : Shaped kind s) (h : ¬ HasKind s kind) :
    classify s = .error (refusal s kind) :=
  classify_of_formOf ((decides_formOf s kind _).mpr ⟨hshaped, Or.inr ⟨h, rfl⟩⟩)

/-- **The kind of a text.** -/
theorem classify_eq_ok_iff : classify s = .ok kind ↔ HasKind s kind := by
  refine ⟨fun h => ?_, HasKind.classify_eq⟩
  by_cases hshaped : ∃ kind', Shaped kind' s
  · obtain ⟨kind', hshaped⟩ := hshaped
    by_cases hkind : HasKind s kind'
    · obtain rfl := Except.ok.inj (hkind.classify_eq.symm.trans h)
      exact hkind
    · cases (classify_of_refused hshaped hkind).symm.trans h
  · cases (classify_of_not_shaped (not_exists.mp hshaped)).symm.trans h

theorem exists_hasKind_iff : (∃ kind, HasKind s kind) ↔ Size s := by
  rw [← exists_classify_iff]
  exact exists_congr fun kind => classify_eq_ok_iff.symm

theorem Refused.classify_eq {d : Defect} (h : Refused s d) (hsize : ¬ Size s) :
    classify s = .error d := by
  have hkind : ∀ kind, ¬ HasKind s kind := not_exists.mp (mt exists_hasKind_iff.mp hsize)
  cases h with
  | minmax hshaped => exact classify_of_refused hshaped (hkind _)
  | fitContent hshaped => exact classify_of_refused hshaped (hkind _)
  | other hm hf =>
    refine classify_of_not_shaped fun kind hshaped => ?_
    rcases kind_cases kind with hu | hw | rfl | rfl
    · exact hkind kind (.measure hu ((shaped_measure_iff hu).mp hshaped))
    · exact hkind kind ((shaped_keyword_iff hw).mp hshaped ▸ .keyword hw)
    · exact hm hshaped
    · exact hf hshaped

theorem exists_refused (s : Text) : ∃ d, Refused s d := by
  by_cases hm : Shaped .minmax s
  · exact ⟨_, .minmax hm⟩
  by_cases hf : Shaped .fitContent s
  · exact ⟨_, .fitContent hf⟩
  · exact ⟨_, .other hm hf⟩

/-- **What a text without a kind is refused for.** -/
theorem classify_eq_error_iff {d : Defect} : classify s = .error d ↔ ¬ Size s ∧ Refused s d := by
  constructor
  · intro h
    have hsize : ¬ Size s := fun hs => by
      obtain ⟨kind, hk⟩ := hs.exists_classify
      cases hk.symm.trans h
    obtain ⟨d', hd'⟩ := exists_refused s
    obtain rfl := Except.error.inj ((hd'.classify_eq hsize).symm.trans h)
    exact ⟨hsize, hd'⟩
  · rintro ⟨hsize, hd⟩
    exact hd.classify_eq hsize

/-! ### Patterns -/

/-- Two arguments without blanks, a comma and blanks between them, and a closing bracket. -/
def minmaxPattern : Pattern :=
  .seq (.run isInk) (.seq (.one (· = ',')) (.seq (.run isBlank) (.seq (.run isInk) (.one (· = ')')))))

/-- An argument without blanks and a closing bracket. -/
def fitContentPattern : Pattern := .seq (.run isInk) (.one (· = ')'))

/-- **The pattern of a kind.** -/
def patternOf : Kind → Pattern
  | .minmax => .seq (.word "minmax(".toList) minmaxPattern
  | .fitContent => .seq (.word "fit-content(".toList) fitContentPattern
  | .auto => .word Kind.auto.name.toList
  | .minContent => .word Kind.minContent.name.toList
  | .maxContent => .word Kind.maxContent.name.toList
  | unit => .seq (.run isDecimalDigit) (.word unit.name.toList)

theorem patternOf_measure : ∀ unit ∈ measures,
    patternOf unit = .seq (.run isDecimalDigit) (.word unit.name.toList) := by
  simp [measures, patternOf]

theorem patternOf_keyword : ∀ word ∈ keywords, patternOf word = .word word.name.toList := by
  simp [keywords, patternOf]

theorem spells_run_isInk_iff : (Pattern.run isInk).Spells s ↔ s ≠ [] ∧ Ink s := by
  rw [Pattern.spells_run_iff]
  exact and_congr_right fun _ => ⟨Text.ink_of_all, Ink.all⟩

theorem spells_seq_word_iff {start : Text} {pattern : Pattern} :
    (Pattern.seq (.word start) pattern).Spells s ↔ ∃ rest, s = start ++ rest ∧ pattern.Spells rest := by
  constructor
  · rintro ⟨front, rest, rfl, hfront, hrest⟩
    exact ⟨rest, by rw [Pattern.spells_word_iff.mp hfront], hrest⟩
  · rintro ⟨rest, rfl, hrest⟩
    exact ⟨start, rest, rfl, Pattern.spells_word_iff.mpr rfl, hrest⟩

theorem spells_minmaxPattern_iff : minmaxPattern.Spells s ↔
    ∃ m : MinmaxParts, s = (m.first ++ [',']) ++ m.gap ++ (m.second ++ [')']) := by
  constructor
  · rintro ⟨first, _, rfl, hfirst, comma, _, rfl, hcomma, gap, _, rfl, hgap, second, close, rfl,
      hsecond, hclose⟩
    obtain rfl := Pattern.spells_one_iff.mp hcomma
    obtain rfl := Pattern.spells_one_iff.mp hclose
    obtain ⟨hne, hink⟩ := spells_run_isInk_iff.mp hfirst
    obtain ⟨hgne, hblank⟩ := Pattern.spells_run_iff.mp hgap
    obtain ⟨hne', hink'⟩ := spells_run_isInk_iff.mp hsecond
    exact ⟨⟨first, gap, second, hne, hink, hgne, hblank, hne', hink'⟩, by simp⟩
  · rintro ⟨m, rfl⟩
    exact ⟨m.first, [','] ++ (m.gap ++ (m.second ++ [')'])), by simp,
      spells_run_isInk_iff.mpr ⟨m.first_ne_nil, m.ink_first⟩,
      [','], m.gap ++ (m.second ++ [')']), rfl, Pattern.spells_one_iff.mpr rfl,
      m.gap, m.second ++ [')'], rfl, Pattern.spells_run_iff.mpr ⟨m.gap_ne_nil, m.blank_gap⟩,
      m.second, [')'], rfl, spells_run_isInk_iff.mpr ⟨m.second_ne_nil, m.ink_second⟩,
      Pattern.spells_one_iff.mpr rfl⟩

theorem spells_fitContentPattern_iff : fitContentPattern.Spells s ↔
    ∃ argument, s = argument ++ [')'] ∧ argument ≠ [] ∧ Ink argument := by
  constructor
  · rintro ⟨argument, close, rfl, hargument, hclose⟩
    obtain rfl := Pattern.spells_one_iff.mp hclose
    exact ⟨argument, rfl, spells_run_isInk_iff.mp hargument⟩
  · rintro ⟨argument, rfl, h⟩
    exact ⟨argument, [')'], rfl, spells_run_isInk_iff.mpr h, Pattern.spells_one_iff.mpr rfl⟩

/-- **The texts of a shape are what its pattern spells.** -/
theorem spells_patternOf_iff : (patternOf kind).Spells s ↔ Shaped kind s := by
  rcases kind_cases kind with hu | hw | rfl | rfl
  · rw [patternOf_measure kind hu, shaped_measure_iff hu]
    constructor
    · rintro ⟨digits, unit, rfl, hdigits, hunit⟩
      obtain ⟨hne, hdigits⟩ := Pattern.spells_run_iff.mp hdigits
      exact ⟨digits, hne, hdigits, by rw [Pattern.spells_word_iff.mp hunit]⟩
    · rintro ⟨digits, hne, hdigits, rfl⟩
      exact ⟨digits, _, rfl, Pattern.spells_run_iff.mpr ⟨hne, hdigits⟩,
        Pattern.spells_word_iff.mpr rfl⟩
  · rw [patternOf_keyword kind hw, shaped_keyword_iff hw, Pattern.spells_word_iff]
  · rw [patternOf, spells_seq_word_iff, shaped_minmax_iff]
    unfold MinmaxParts.text minmaxText
    generalize "minmax(".toList = start
    simp only [spells_minmaxPattern_iff, List.append_assoc]
    constructor
    · rintro ⟨_, rfl, m, rfl⟩
      exact ⟨m, rfl⟩
    · rintro ⟨m, rfl⟩
      exact ⟨_, rfl, m, rfl⟩
  · rw [patternOf, spells_seq_word_iff, shaped_fitContent_iff]
    unfold fitContentText
    generalize "fit-content(".toList = start
    simp only [spells_fitContentPattern_iff]
    constructor
    · rintro ⟨_, rfl, argument, rfl, h⟩
      exact ⟨argument, rfl, h⟩
    · rintro ⟨argument, rfl, h⟩
      exact ⟨_, rfl, argument, rfl, h⟩

/-- **Sizes have one kind.** A text has the kind that it is written as, a call only if its arguments
are sizes; any other text is refused, for its arguments if it is written as a call. The arguments of
a `minmax` are found in one way. The forms of the grammar are patterns, and since no two of them fit
a text they may be asked in any order. -/
theorem sizes_have_one_kind (s : Text) :
    (∀ kind, classify s = .ok kind ↔ HasKind s kind) ∧
    (∀ d, classify s = .error d ↔ ¬ Size s ∧ Refused s d) ∧
    (∀ m m' : MinmaxParts, m.text = s → m'.text = s → m = m') ∧
    List.Forall₂ (fun form pattern => form.Fits s ↔ Pattern.Spells pattern s) grammar
      (kinds.map patternOf) ∧
    (grammar.Pairwise fun form form' => ¬ (form.Fits s ∧ form'.Fits s)) ∧
    ∀ forms, forms.Perm grammar → classifyBy forms s = classify s := by
  refine ⟨fun _ => classify_eq_ok_iff, fun _ => classify_eq_error_iff,
    fun m m' h h' => MinmaxParts.unique (h.trans h'.symm), ?_, pairwise_grammar s,
    fun forms h => (classifyBy_of_perm h.symm (pairwise_grammar s)).symm⟩
  rw [grammar_eq, List.forall₂_map_left_iff, List.forall₂_map_right_iff, List.forall₂_same]
  exact fun kind _ => fits_formOf_iff.trans spells_patternOf_iff.symm

/-- Every kind once, and what some texts are refused for: a `fit-content` takes no fraction, and a
comma without blanks behind it belongs to an argument. -/
example :
    ["3px", "1fr", "٣em", "50%", "100vh", "9vw", "auto", "min-content", "max-content",
        "minmax(1px, auto)", "fit-content(50%)"].map (fun s => classify s.toList) =
      [.ok .pixel, .ok .fraction, .ok .em, .ok .percent, .ok .viewportHeight, .ok .viewportWidth,
        .ok .auto, .ok .minContent, .ok .maxContent, .ok .minmax, .ok .fitContent] ∧
    classify "minmax(1px,2px, 3px)".toList = .error (.invalidMinmax "minmax(1px,2px, 3px)".toList) ∧
    classify "fit-content(1fr)".toList = .error (.invalidFitContent "fit-content(1fr)".toList) ∧
    classify "minmax(1px,2px)".toList = .error (.invalidTrackSize "minmax(1px,2px)".toList) ∧
    classify "1.5em".toList = .error (.invalidTrackSize "1.5em".toList) := by
  decide +kernel

end GridText.Track
