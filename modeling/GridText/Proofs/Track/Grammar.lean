import GridText.Track
import GridText.Proofs.Text.Blank
import Mathlib.Data.Option.Basic

/-! # Track sizes: the grammar

`Size` is the grammar of track sizes as a set of texts: a number with a unit, a keyword, a `minmax`
of two of these, or a `fit-content` of a length or a percentage.

* `minmaxArguments?_eq_some_iff`, `fitContentArgument?_eq_some_iff`: which texts are calls.
* `exists_classify_iff`: a text has a kind exactly when it is in the grammar.
* `classify_eq_error`: what a text without a kind is refused for. -/

namespace GridText.Track

/-- One or more decimal digits, then the unit. -/
def Measure (unit : Kind) (s : Text) : Prop :=
  ∃ digits : Text, digits ≠ [] ∧ (∀ c ∈ digits, isDecimalDigit c = true) ∧
    s = digits ++ unit.name.toList

/-- The simple sizes: a number with a unit, or a keyword. -/
inductive Simple : Text → Prop
  | measure {unit : Kind} {s : Text} : unit ∈ measures → Measure unit s → Simple s
  | keyword {word : Kind} : word ∈ keywords → Simple word.name.toList

/-- The lengths and percentages. -/
def Fit (s : Text) : Prop := ∃ unit ∈ [Kind.pixel, Kind.em, Kind.percent], Measure unit s

/-- The text of a `minmax` with these arguments and these blanks between them. -/
def minmaxText (first gap second : Text) : Text :=
  "minmax(".toList ++ (first ++ [',']) ++ gap ++ (second ++ [')'])

/-- The text of a `fit-content` with this argument. -/
def fitContentText (argument : Text) : Text := "fit-content(".toList ++ (argument ++ [')'])

/-- **The track sizes.** -/
inductive Size : Text → Prop
  | simple {s : Text} : Simple s → Size s
  | minmax {first gap second : Text} : Simple first → gap ≠ [] → Text.Blank gap → Simple second →
      Size (minmaxText first gap second)
  | fitContent {argument : Text} : Fit argument → Size (fitContentText argument)

/-! ### Simple sizes -/

/-- The digits of all scripts lie above the ASCII punctuation and apart from the blanks. -/
theorem digitZeros_apart : ∀ z ∈ digitZeros,
    0x30 ≤ z ∧ ∀ r ∈ blankRanges, r.2 < z ∨ z + 9 < r.1 := by
  decide

theorem zero_of_isDecimalDigit {c : Char} (h : isDecimalDigit c = true) :
    ∃ z ∈ digitZeros, z ≤ c.toNat ∧ c.toNat < z + 10 := by
  simp only [isDecimalDigit, decimalValue?, Option.isSome_map, List.find?_isSome,
    Bool.and_eq_true, decide_eq_true_eq] at h
  exact h

theorem isBlank_of_isDecimalDigit {c : Char} (h : isDecimalDigit c = true) : isBlank c = false := by
  obtain ⟨z, hz, hle, hlt⟩ := zero_of_isDecimalDigit h
  refine List.any_eq_false.mpr fun r hr => ?_
  have := (digitZeros_apart z hz).2 r hr
  simp only [Bool.and_eq_true, decide_eq_true_eq, not_and, Nat.not_le]
  omega

/-- The characters that a call is put together with. -/
def callMarks : List Char := ['(', ')', ',']

theorem not_mem_callMarks_of_isDecimalDigit {c : Char} (h : isDecimalDigit c = true) :
    c ∉ callMarks := by
  intro hc
  have hlow : ∀ d ∈ callMarks, d.toNat < 0x30 := by simp [callMarks]
  obtain ⟨z, hz, hle, -⟩ := zero_of_isDecimalDigit h
  have := (digitZeros_apart z hz).1
  have := hlow c hc
  omega

/-- What a unit is written with: no digit in front, no blank, nothing of a call. -/
theorem name_of_mem_measures : ∀ unit ∈ measures, (∀ c ∈ unit.name.toList.head?,
    isDecimalDigit c = false) ∧ ∀ c ∈ unit.name.toList, isBlank c = false ∧ c ∉ callMarks := by
  have h : ∀ unit ∈ measures, unit.name.toList.head?.all (!isDecimalDigit ·) = true ∧
      unit.name.toList.all (fun c => !isBlank c && c ∉ callMarks) = true := by decide
  simpa [Option.all_eq_true] using h

theorem name_of_mem_keywords : ∀ word ∈ keywords, word.name.toList ≠ [] ∧
    ∀ c ∈ word.name.toList, isBlank c = false ∧ c ∉ callMarks := by
  have h : ∀ word ∈ keywords, word.name.toList ≠ [] ∧
      word.name.toList.all (fun c => !isBlank c && c ∉ callMarks) = true := by decide
  simpa using h

theorem isMeasure_iff {unit : Kind} (hu : unit ∈ measures) {s : Text} :
    isMeasure unit s = true ↔ Measure unit s := by
  simp only [isMeasure, Bool.and_eq_true, Bool.not_eq_true', List.isEmpty_eq_false_iff, beq_iff_eq]
  constructor
  · rintro ⟨hne, hunit⟩
    refine ⟨_, hne, fun c hc => List.mem_takeWhile_imp hc, ?_⟩
    rw [← hunit, List.takeWhile_append_dropWhile]
  · rintro ⟨digits, hne, hdigits, rfl⟩
    have hhead := (name_of_mem_measures unit hu).1
    rw [takeWhile_of_stop hdigits hhead, dropWhile_of_stop hdigits hhead]
    exact ⟨hne, rfl⟩

theorem isSimple_iff {s : Text} : isSimple s = true ↔ Simple s := by
  simp only [isSimple, simpleKind?, Option.isSome_or, List.find?_isSome, Bool.or_eq_true, isKeyword,
    beq_iff_eq]
  constructor
  · rintro (⟨unit, hu, h⟩ | ⟨word, hw, rfl⟩)
    · exact .measure hu ((isMeasure_iff hu).mp h)
    · exact .keyword hw
  · rintro (⟨hu, h⟩ | hw)
    · exact Or.inl ⟨_, hu, (isMeasure_iff hu).mpr h⟩
    · exact Or.inr ⟨_, hw, rfl⟩

theorem isLengthOrPercentage_iff {s : Text} : isLengthOrPercentage s = true ↔ Fit s := by
  have hsub : ∀ unit ∈ [Kind.pixel, Kind.em, Kind.percent], unit ∈ measures := by decide
  rw [isLengthOrPercentage, List.any_eq_true]
  exact exists_congr fun unit => and_congr_right fun hu => isMeasure_iff (hsub unit hu)

theorem Measure.plain {unit : Kind} (hu : unit ∈ measures) {s : Text} (h : Measure unit s) :
    s ≠ [] ∧ ∀ c ∈ s, isBlank c = false ∧ c ∉ callMarks := by
  obtain ⟨digits, hne, hdigits, rfl⟩ := h
  refine ⟨by simp [hne], fun c hc => ?_⟩
  rcases List.mem_append.mp hc with hc | hc
  · exact ⟨isBlank_of_isDecimalDigit (hdigits c hc),
      not_mem_callMarks_of_isDecimalDigit (hdigits c hc)⟩
  · exact (name_of_mem_measures unit hu).2 c hc

/-- A simple size is not empty and has neither blanks nor anything of a call. -/
theorem Simple.plain {s : Text} (h : Simple s) :
    s ≠ [] ∧ ∀ c ∈ s, isBlank c = false ∧ c ∉ callMarks := by
  rcases h with ⟨hu, h⟩ | hw
  · exact h.plain hu
  · exact name_of_mem_keywords _ hw

theorem Simple.ink {s : Text} (h : Simple s) : Text.Ink s := fun c hc => (h.plain.2 c hc).1

/-- A length or percentage is a simple size. -/
theorem Fit.simple {s : Text} (h : Fit s) : Simple s := by
  obtain ⟨unit, hu, h⟩ := h
  have hsub : ∀ unit ∈ [Kind.pixel, Kind.em, Kind.percent], unit ∈ measures := by decide
  exact .measure (hsub unit hu) h

theorem Fit.ink {s : Text} (h : Fit s) : s ≠ [] ∧ Text.Ink s := ⟨h.simple.plain.1, h.simple.ink⟩

/-! ### Calls -/

theorem after?_eq_some_iff {start s rest : Text} :
    after? start s = some rest ↔ s = start ++ rest := by
  unfold after?
  split_ifs with h
  · obtain ⟨t, rfl⟩ := List.isPrefixOf_iff_prefix.mp h
    simp
  · simp only [false_iff]
    rintro rfl
    exact h (List.isPrefixOf_iff_prefix.mpr (List.prefix_append _ _))

theorem beforeLast?_eq_some_iff {c : Char} {s front : Text} :
    beforeLast? c s = some front ↔ s = front ++ [c] ∧ front ≠ [] := by
  unfold beforeLast?
  split_ifs with h
  · obtain ⟨hlast, hne⟩ := h
    obtain ⟨t, rfl⟩ := List.getLast?_eq_some_iff.mp hlast
    simp only [List.dropLast_concat, Option.some.injEq, List.append_cancel_right_eq]
    rw [List.dropLast_concat] at hne
    constructor
    · rintro rfl; exact ⟨rfl, hne⟩
    · rintro ⟨rfl, -⟩; rfl
  · simp only [false_iff]
    rintro ⟨rfl, hne⟩
    exact h ⟨by simp, by simpa using hne⟩

/-- The arguments of a `minmax` determine it up to the blanks between them. -/
theorem minmaxArguments?_eq_some_iff {s first second : Text} :
    minmaxArguments? s = some (first, second) ↔
      ∃ gap, s = minmaxText first gap second ∧ first ≠ [] ∧ Text.Ink first ∧ gap ≠ [] ∧
        Text.Blank gap ∧ second ≠ [] ∧ Text.Ink second := by
  unfold minmaxArguments? minmaxText
  generalize "minmax(".toList = start
  simp only [Option.bind_eq_bind, Option.bind_eq_some_iff, after?_eq_some_iff,
    beforeLast?_eq_some_iff, Option.guard_eq_some', Option.pure_def, Option.some.injEq,
    Prod.mk.injEq, Bool.and_eq_true, Bool.not_eq_true', List.isEmpty_eq_false_iff,
    List.all_eq_true]
  constructor
  · rintro ⟨inner, rfl, first', ⟨hfirst, hne⟩, -, ⟨hgap, hink⟩, second', ⟨hsecond, hne'⟩, rfl, rfl⟩
    have hinner : inner = inner.takeWhile isInk ++ (Text.leadingBlanks (inner.dropWhile isInk) ++
        Text.trimStart (inner.dropWhile isInk)) := by
      rw [Text.leadingBlanks_append_trimStart, List.takeWhile_append_dropWhile]
    have hinkfirst := Text.ink_takeWhile inner
    rw [hfirst] at hinner hinkfirst
    rw [hsecond] at hinner hink
    refine ⟨_, ?_, hne, ?_, hgap, Text.blank_leadingBlanks _, hne', ?_⟩
    · rw [List.append_assoc, List.append_assoc, ← hinner]
    · exact fun c hc => hinkfirst c (by simp [hc])
    · exact fun c hc => Text.ink_of_all hink c (by simp [hc])
  · rintro ⟨gap, rfl, hne, hfirst, hgne, hgap, hne', hsecond⟩
    have hcomma : Text.Ink (first ++ [',']) := hfirst.append (Text.ink_singleton rfl)
    have hclose : Text.Ink (second ++ [')']) := hsecond.append (Text.ink_singleton rfl)
    have hstop : Text.Stops (gap ++ ((second ++ [')']) ++ [])) := by
      obtain ⟨c, gap, rfl⟩ := List.exists_cons_of_ne_nil hgne
      exact fun d hd => hgap d (by simp at hd; simp [hd])
    refine ⟨(first ++ [',']) ++ (gap ++ ((second ++ [')']) ++ [])), by simp, first, ?_⟩
    rw [Text.takeWhile_isInk_append hcomma hstop, Text.dropWhile_isInk_append hcomma hstop,
      (hclose.begins (by simp)).trimStart_append hgap,
      (hclose.begins (by simp)).leadingBlanks_append hgap, List.append_nil]
    exact ⟨⟨rfl, hne⟩, (), ⟨hgne, hclose.all⟩, second, ⟨rfl, hne'⟩, rfl, rfl⟩

theorem fitContentArgument?_eq_some_iff {s argument : Text} :
    fitContentArgument? s = some argument ↔
      s = fitContentText argument ∧ argument ≠ [] ∧ Text.Ink argument := by
  simp only [fitContentArgument?, Option.bind_eq_bind, Option.bind_eq_some_iff, after?_eq_some_iff,
    beforeLast?_eq_some_iff, Option.guard_eq_some', List.all_eq_true]
  constructor
  · rintro ⟨inner, rfl, -, hink, rfl, hne⟩
    exact ⟨rfl, hne, fun c hc => Text.ink_of_all hink c (by simp [hc])⟩
  · rintro ⟨rfl, hne, hink⟩
    exact ⟨_, rfl, (), (hink.append (Text.ink_singleton rfl)).all, rfl, hne⟩

theorem ink_fitContentText {argument : Text} (h : Text.Ink argument) :
    Text.Ink (fitContentText argument) := by
  have hname : Text.Ink "fit-content(".toList := by decide
  exact hname.append (h.append (Text.ink_singleton rfl))

theorem open_mem_minmaxText (first gap second : Text) : '(' ∈ minmaxText first gap second := by
  have h : '(' ∈ "minmax(".toList := by decide
  exact List.mem_append_left _ (List.mem_append_left _ (List.mem_append_left _ h))

theorem open_mem_fitContentText (argument : Text) : '(' ∈ fitContentText argument := by
  have h : '(' ∈ "fit-content(".toList := by decide
  exact List.mem_append_left _ h

theorem head?_minmaxText (first gap second : Text) :
    (minmaxText first gap second).head? = some 'm' := rfl

theorem head?_fitContentText (argument : Text) : (fitContentText argument).head? = some 'f' := rfl

theorem minmaxArguments?_of_not_open {s : Text} (h : ∀ c ∈ s, c ≠ '(') :
    minmaxArguments? s = none := by
  rw [Option.eq_none_iff_forall_ne_some]
  rintro ⟨first, second⟩ hs
  obtain ⟨gap, rfl, -⟩ := minmaxArguments?_eq_some_iff.mp hs
  exact h '(' (open_mem_minmaxText first gap second) rfl

theorem fitContentArgument?_of_not_open {s : Text} (h : ∀ c ∈ s, c ≠ '(') :
    fitContentArgument? s = none := by
  rw [Option.eq_none_iff_forall_ne_some]
  intro argument hs
  obtain ⟨rfl, -⟩ := fitContentArgument?_eq_some_iff.mp hs
  exact h '(' (open_mem_fitContentText argument) rfl

theorem minmaxArguments?_fitContentText (argument : Text) :
    minmaxArguments? (fitContentText argument) = none := by
  rw [Option.eq_none_iff_forall_ne_some]
  rintro ⟨first, second⟩ hs
  obtain ⟨gap, he, -⟩ := minmaxArguments?_eq_some_iff.mp hs
  have hhead := congrArg List.head? he
  rw [head?_fitContentText, head?_minmaxText] at hhead
  exact absurd hhead (by decide)

/-! ### The first form that fits -/

/-- Behind the two calls, the forms that are left are those of the simple sizes. -/
theorem findSome?_simple {s : Text} :
    (∃ kind, (measures.map Form.measure ++ keywords.map Form.keyword).findSome? (· s) =
      some (.ok kind)) ↔ Simple s := by
  have hforms : ∀ form ∈ measures.map Form.measure ++ keywords.map Form.keyword, ∀ r,
      form s = some r → Simple s ∧ ∃ kind, r = .ok kind := by
    intro form hform r hr
    rcases List.mem_append.mp hform with hform | hform
    · obtain ⟨unit, hu, rfl⟩ := List.mem_map.mp hform
      obtain ⟨h, hr⟩ := Option.ite_none_right_eq_some.mp hr
      exact ⟨.measure hu ((isMeasure_iff hu).mp h), unit, (Option.some.inj hr).symm⟩
    · obtain ⟨word, hw, rfl⟩ := List.mem_map.mp hform
      obtain ⟨h, hr⟩ := Option.ite_none_right_eq_some.mp hr
      have hs : s = word.name.toList := beq_iff_eq.mp h
      exact ⟨hs ▸ .keyword hw, word, (Option.some.inj hr).symm⟩
  constructor
  · rintro ⟨kind, h⟩
    obtain ⟨form, hform, hfits⟩ := List.exists_of_findSome?_eq_some h
    exact (hforms form hform _ hfits).1
  · intro h
    cases hfound : (measures.map Form.measure ++ keywords.map Form.keyword).findSome? (· s) with
    | none =>
      have hnone := List.findSome?_eq_none_iff.mp hfound
      rcases h with ⟨hu, h⟩ | hw
      · have := hnone _ (List.mem_append_left _ (List.mem_map_of_mem hu))
        simp [Form.measure, (isMeasure_iff hu).mpr h] at this
      · have := hnone _ (List.mem_append_right _ (List.mem_map_of_mem hw))
        simp [Form.keyword, isKeyword] at this
    | some r =>
      obtain ⟨form, hform, hfits⟩ := List.exists_of_findSome?_eq_some hfound
      obtain ⟨-, kind, rfl⟩ := hforms form hform r hfits
      exact ⟨kind, rfl⟩

theorem classify_of_minmaxArguments? {s first second : Text}
    (h : minmaxArguments? s = some (first, second)) :
    classify s = if isSimple first && isSimple second then .ok .minmax
      else .error (.invalidMinmax s) := by
  simp [classify, classifyBy, grammar, Form.minmax, h]

theorem classify_of_fitContentArgument? {s argument : Text} (h : minmaxArguments? s = none)
    (h' : fitContentArgument? s = some argument) :
    classify s = if isLengthOrPercentage argument then .ok .fitContent
      else .error (.invalidFitContent s) := by
  simp [classify, classifyBy, grammar, Form.minmax, Form.fitContent, h, h']

theorem classify_of_no_call {s : Text} (h : minmaxArguments? s = none)
    (h' : fitContentArgument? s = none) :
    classify s = ((measures.map Form.measure ++ keywords.map Form.keyword).findSome? (· s)).getD
      (.error (.invalidTrackSize s)) := by
  rw [classify, classifyBy, grammar, List.append_assoc]
  simp only [List.cons_append, List.nil_append, List.findSome?_cons, Form.minmax, Form.fitContent,
    h, h', Option.map_none]

theorem size_of_classify {s : Text} {kind : Kind} (h : classify s = .ok kind) : Size s := by
  cases hm : minmaxArguments? s with
  | some arguments =>
    obtain ⟨first, second⟩ := arguments
    rw [classify_of_minmaxArguments? hm] at h
    split_ifs at h with hs
    obtain ⟨hfirst, hsecond⟩ := (Bool.and_eq_true _ _).mp hs
    obtain ⟨gap, rfl, -, -, hne, hgap, -, -⟩ := minmaxArguments?_eq_some_iff.mp hm
    exact .minmax (isSimple_iff.mp hfirst) hne hgap (isSimple_iff.mp hsecond)
  | none =>
    cases hf : fitContentArgument? s with
    | some argument =>
      rw [classify_of_fitContentArgument? hm hf] at h
      split_ifs at h with hl
      obtain ⟨rfl, -⟩ := fitContentArgument?_eq_some_iff.mp hf
      exact .fitContent (isLengthOrPercentage_iff.mp hl)
    | none =>
      rw [classify_of_no_call hm hf] at h
      refine .simple (findSome?_simple.mp ⟨kind, ?_⟩)
      cases hfound : (measures.map Form.measure ++ keywords.map Form.keyword).findSome? (· s) with
      | none => rw [hfound] at h; cases h
      | some r => rw [hfound] at h; exact congrArg some h

theorem Size.exists_classify {s : Text} (h : Size s) : ∃ kind, classify s = .ok kind := by
  rcases h with hs | ⟨hf, hne, hgap, hs⟩ | hf
  · have hopen : ∀ c ∈ s, c ≠ '(' := by
      rintro c hc rfl
      exact (hs.plain.2 '(' hc).2 (by decide)
    obtain ⟨kind, hk⟩ := findSome?_simple.mpr hs
    refine ⟨kind, ?_⟩
    rw [classify_of_no_call (minmaxArguments?_of_not_open hopen)
      (fitContentArgument?_of_not_open hopen), hk]
    rfl
  · have hm := minmaxArguments?_eq_some_iff.mpr
      ⟨_, rfl, hf.plain.1, hf.ink, hne, hgap, hs.plain.1, hs.ink⟩
    refine ⟨.minmax, ?_⟩
    rw [classify_of_minmaxArguments? hm, isSimple_iff.mpr hf, isSimple_iff.mpr hs]
    rfl
  · have hc := fitContentArgument?_eq_some_iff.mpr ⟨rfl, hf.ink⟩
    refine ⟨.fitContent, ?_⟩
    rw [classify_of_fitContentArgument? (minmaxArguments?_fitContentText _) hc,
      isLengthOrPercentage_iff.mpr hf]
    rfl

/-- **A text has a kind exactly when it is in the grammar.** -/
theorem exists_classify_iff {s : Text} : (∃ kind, classify s = .ok kind) ↔ Size s := by
  constructor
  · rintro ⟨kind, h⟩
    exact size_of_classify h
  · exact Size.exists_classify

/-- A text that has no kind is refused as a whole or for its arguments. -/
theorem classify_eq_error {s : Text} {d : Defect} (h : classify s = .error d) :
    d = .invalidTrackSize s ∨ d = .invalidMinmax s ∨ d = .invalidFitContent s := by
  unfold classify classifyBy at h
  cases hfound : grammar.findSome? (· s) with
  | none =>
    rw [hfound] at h
    exact Or.inl (Except.error.inj h).symm
  | some r =>
    obtain ⟨form, hform, hfits⟩ := List.exists_of_findSome?_eq_some hfound
    obtain rfl : r = .error d := by rwa [hfound] at h
    simp only [grammar, List.mem_append, List.mem_cons, List.not_mem_nil, or_false,
      List.mem_map] at hform
    rcases hform with ((rfl | rfl) | ⟨unit, -, rfl⟩) | ⟨word, -, rfl⟩
    · obtain ⟨⟨first, second⟩, -, hr⟩ := Option.map_eq_some_iff.mp hfits
      simp only at hr
      split_ifs at hr
      exact Or.inr (Or.inl (Except.error.inj hr).symm)
    · obtain ⟨_, -, hr⟩ := Option.map_eq_some_iff.mp hfits
      split_ifs at hr
      exact Or.inr (Or.inr (Except.error.inj hr).symm)
    · obtain ⟨-, hr⟩ := Option.ite_none_right_eq_some.mp hfits
      cases hr
    · obtain ⟨-, hr⟩ := Option.ite_none_right_eq_some.mp hfits
      cases hr

end GridText.Track
