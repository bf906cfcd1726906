import GridText.Text.Blank
import Mathlib.Data.List.DropRight
import Mathlib.Data.List.TakeWhile
import Mathlib.Tactic.Common

/-! # Text: blanks and ink

A text is `Blank` if it has nothing but blanks and `Ink` if it has none. It `Begins` or `EndsInInk`
if its first or last character is no blank. A word that `Stops` in front of a text is not continued
by it: the text ends there, or a blank follows. -/

namespace GridText

theorem isInk_eq_true_iff {c : Char} : isInk c = true ↔ isBlank c = false := by simp [isInk]

/-- A longest run ends where its condition first fails. -/
theorem takeWhile_of_stop {p : Char → Bool} {word rest : Text} (hw : ∀ c ∈ word, p c = true)
    (hr : ∀ c ∈ rest.head?, p c = false) : (word ++ rest).takeWhile p = word := by
  rw [List.takeWhile_append_of_pos hw]
  cases rest with
  | nil => simp
  | cons c rest => simp [hr c rfl]

theorem dropWhile_of_stop {p : Char → Bool} {word rest : Text} (hw : ∀ c ∈ word, p c = true)
    (hr : ∀ c ∈ rest.head?, p c = false) : (word ++ rest).dropWhile p = rest := by
  rw [List.dropWhile_append_of_pos hw]
  cases rest with
  | nil => simp
  | cons c rest => simp [hr c rfl]

/-- A text is cut in one way where a condition first fails. -/
theorem append_inj_of_stop {p : Char → Bool} {word word' rest rest' : Text}
    (hw : ∀ c ∈ word, p c = true) (hw' : ∀ c ∈ word', p c = true)
    (hr : ∀ c ∈ rest.head?, p c = false) (hr' : ∀ c ∈ rest'.head?, p c = false)
    (h : word ++ rest = word' ++ rest') : word = word' ∧ rest = rest' := by
  have htake := congrArg (List.takeWhile p) h
  have hdrop := congrArg (List.dropWhile p) h
  rw [takeWhile_of_stop hw hr, takeWhile_of_stop hw' hr'] at htake
  rw [dropWhile_of_stop hw hr, dropWhile_of_stop hw' hr'] at hdrop
  exact ⟨htake, hdrop⟩

/-- A text is cut in one way at the first character that does not meet a condition. -/
theorem append_cons_inj_of_stop {p : Char → Bool} {word word' rest rest' : Text} {c : Char}
    (hw : ∀ d ∈ word, p d = true) (hw' : ∀ d ∈ word', p d = true) (hc : p c = false)
    (h : word ++ c :: rest = word' ++ c :: rest') : word = word' ∧ rest = rest' := by
  have hstop (rest : Text) : ∀ d ∈ (c :: rest).head?, p d = false := by
    rintro d ⟨⟩
    exact hc
  obtain ⟨hword, hbehind⟩ := append_inj_of_stop hw hw' (hstop rest) (hstop rest') h
  exact ⟨hword, (List.cons.inj hbehind).2⟩

theorem head?_dropWhile_eq_false {p : Char → Bool} {s : Text} {c : Char}
    (h : c ∈ (s.dropWhile p).head?) : p c = false := by
  have := List.head?_dropWhile_not p s
  rw [Option.mem_def.mp h] at this
  simpa using this

/-- A condition holds of all characters of a text, or there is a first one where it fails. -/
theorem all_or_exists_first (p : Char → Bool) (s : Text) : (∀ c ∈ s, p c = true) ∨
    ∃ front c rest, s = front ++ c :: rest ∧ (∀ d ∈ front, p d = true) ∧ p c = false := by
  have hsplit : s.takeWhile p ++ s.dropWhile p = s := List.takeWhile_append_dropWhile
  cases hrest : s.dropWhile p with
  | nil =>
    rw [hrest, List.append_nil] at hsplit
    exact Or.inl fun c hc => List.mem_takeWhile_imp (hsplit ▸ hc)
  | cons c rest =>
    refine Or.inr ⟨s.takeWhile p, c, rest, by rw [← hrest, hsplit],
      fun d hd => List.mem_takeWhile_imp hd, head?_dropWhile_eq_false (s := s) ?_⟩
    rw [hrest]
    rfl

namespace Text

/-- Nothing but blanks. -/
def Blank (s : Text) : Prop := ∀ c ∈ s, isBlank c = true

/-- No blank. -/
def Ink (s : Text) : Prop := ∀ c ∈ s, isBlank c = false

/-- The text begins with a character that is no blank. -/
def Begins (s : Text) : Prop := ∃ c rest, s = c :: rest ∧ isBlank c = false

/-- The text ends with a character that is no blank. -/
def EndsInInk (s : Text) : Prop := ∃ front c, s = front ++ [c] ∧ isBlank c = false

/-- A word in front of this text stops there. -/
def Stops (s : Text) : Prop := ∀ c ∈ s.head?, isBlank c = true

-- by name: a search may find an instance that goes through all characters instead of those of `s`
instance (s : Text) : Decidable (Blank s) := List.decidableBAll _ s

instance (s : Text) : Decidable (Ink s) := List.decidableBAll _ s

theorem blank_nil : Blank [] := fun _ hc => absurd hc List.not_mem_nil

theorem Blank.append {s t : Text} (hs : Blank s) (ht : Blank t) : Blank (s ++ t) := by
  intro c hc
  rcases List.mem_append.mp hc with hc | hc
  · exact hs c hc
  · exact ht c hc

theorem Blank.stops {s : Text} (h : Blank s) : Stops s :=
  fun c hc => h c (List.mem_of_mem_head? hc)

theorem Stops.append {s t : Text} (hs : Stops s) (ht : Stops t) : Stops (s ++ t) := by
  cases s with
  | nil => simpa using ht
  | cons c s => exact fun d hd => hs d (by simpa using hd)

theorem Ink.append {s t : Text} (hs : Ink s) (ht : Ink t) : Ink (s ++ t) := by
  intro c hc
  rcases List.mem_append.mp hc with hc | hc
  · exact hs c hc
  · exact ht c hc

theorem ink_singleton {c : Char} (h : isBlank c = false) : Ink [c] := by simpa [Ink] using h

theorem Ink.all {s : Text} (h : Ink s) : ∀ c ∈ s, isInk c = true :=
  fun c hc => isInk_eq_true_iff.mpr (h c hc)

theorem ink_of_all {s : Text} (h : ∀ c ∈ s, isInk c = true) : Ink s :=
  fun c hc => isInk_eq_true_iff.mp (h c hc)

theorem ink_takeWhile (s : Text) : Ink (s.takeWhile isInk) :=
  ink_of_all fun _ hc => List.mem_takeWhile_imp hc

theorem blank_leadingBlanks (s : Text) : Blank (leadingBlanks s) :=
  fun _ hc => List.mem_takeWhile_imp hc

theorem trimStart_blank_append {gap : Text} (h : Blank gap) (s : Text) :
    trimStart (gap ++ s) = trimStart s := List.dropWhile_append_of_pos h

theorem trimStart_of_ink {c : Char} {s : Text} (h : isBlank c = false) :
    trimStart (c :: s) = c :: s := by simp [trimStart, h]

theorem trimStart_eq_nil {s : Text} (h : Blank s) : trimStart s = [] :=
  trimStart_eq_nil_iff.mpr h

theorem stops_dropWhile_isInk (s : Text) : Stops (s.dropWhile isInk) := by
  intro c hc
  have := head?_dropWhile_eq_false hc
  simpa [isInk] using this

theorem Ink.begins {s : Text} (h : Ink s) (hne : s ≠ []) : Begins s := by
  obtain ⟨c, rest, rfl⟩ := List.exists_cons_of_ne_nil hne
  exact ⟨c, rest, rfl, h c (by simp)⟩

theorem takeWhile_isInk_append {word rest : Text} (hw : Ink word) (hr : Stops rest) :
    (word ++ rest).takeWhile isInk = word :=
  takeWhile_of_stop hw.all fun c hc => by simp [isInk, hr c hc]

theorem dropWhile_isInk_append {word rest : Text} (hw : Ink word) (hr : Stops rest) :
    (word ++ rest).dropWhile isInk = rest :=
  dropWhile_of_stop hw.all fun c hc => by simp [isInk, hr c hc]

/-- A text that begins with no blank keeps its front when blanks in front of it are cut off. -/
theorem Begins.trimStart_append {gap word : Text} (hw : Begins word) (hg : Blank gap)
    (rest : Text) : trimStart (gap ++ (word ++ rest)) = word ++ rest := by
  obtain ⟨c, word, rfl, hc⟩ := hw
  rw [trimStart_blank_append hg, List.cons_append, trimStart_of_ink hc]

theorem Begins.leadingBlanks_append {gap word : Text} (hw : Begins word) (hg : Blank gap)
    (rest : Text) : leadingBlanks (gap ++ (word ++ rest)) = gap := by
  obtain ⟨c, word, rfl, hc⟩ := hw
  refine takeWhile_of_stop hg fun d hd => ?_
  obtain rfl : c = d := by simpa using hd
  exact hc

theorem Begins.trimStart_eq {s : Text} (h : Begins s) : trimStart s = s := by
  obtain ⟨c, s, rfl, hc⟩ := h
  exact trimStart_of_ink hc

theorem Begins.not_blank {s : Text} (h : Begins s) : ¬ Blank s := by
  obtain ⟨c, s, rfl, hc⟩ := h
  intro hblank
  rw [hblank c List.mem_cons_self] at hc
  cases hc

theorem Begins.of_append {s t : Text} (h : Begins (s ++ t)) (hne : s ≠ []) : Begins s := by
  obtain ⟨c, s, rfl⟩ := List.exists_cons_of_ne_nil hne
  obtain ⟨d, rest, he, hd⟩ := h
  obtain ⟨rfl, -⟩ := List.cons.inj he
  exact ⟨c, s, rfl, hd⟩

/-- Only blanks are cut off at the end. -/
theorem exists_trimEnd_append (s : Text) : ∃ gap, Blank gap ∧ s = trimEnd s ++ gap := by
  refine ⟨(s.reverse.takeWhile isBlank).reverse, fun c hc => ?_, ?_⟩
  · exact List.mem_takeWhile_imp (List.mem_reverse.mp hc)
  · unfold trimEnd
    rw [← List.reverse_append, List.takeWhile_append_dropWhile, List.reverse_reverse]

theorem trimEnd_append_blank {s gap : Text} (h : Blank gap) :
    trimEnd (s ++ gap) = trimEnd s := by
  unfold trimEnd
  rw [List.reverse_append, List.dropWhile_append_of_pos fun c hc => h c (List.mem_reverse.mp hc)]

theorem trimEnd_append {s t : Text} (h : ¬ Blank t) : trimEnd (s ++ t) = s ++ trimEnd t := by
  have hne : t.reverse.dropWhile isBlank ≠ [] := fun he => h fun c hc =>
    List.dropWhile_eq_nil_iff.mp he c (List.mem_reverse.mpr hc)
  unfold trimEnd
  rw [List.reverse_append, List.dropWhile_append, if_neg (by simpa using hne), List.reverse_append,
    List.reverse_reverse]

theorem mem_of_mem_trimEnd {s : Text} {c : Char} (h : c ∈ trimEnd s) : c ∈ s := by
  obtain ⟨gap, -, hs⟩ := exists_trimEnd_append s
  rw [hs]
  exact List.mem_append_left gap h

theorem mem_of_mem_trim {s : Text} {c : Char} (h : c ∈ trim s) : c ∈ s :=
  (List.dropWhile_sublist _).subset (mem_of_mem_trimEnd h)

theorem trim_eq_nil_iff {s : Text} : trim s = [] ↔ Blank s := by
  constructor
  · intro h
    obtain ⟨gap, hgap, hs⟩ := exists_trimEnd_append (trimStart s)
    rw [← trim, h, List.nil_append] at hs
    rw [← leadingBlanks_append_trimStart s, hs]
    exact (blank_leadingBlanks s).append hgap
  · intro h
    rw [trim, trimStart_eq_nil h]
    rfl

/-! ### Without blanks -/

/-- The text without its blanks. -/
def squeeze (s : Text) : Text := s.filter isInk

theorem squeeze_append (s t : Text) : squeeze (s ++ t) = squeeze s ++ squeeze t :=
  List.filter_append s t

theorem squeeze_of_ink {s : Text} (h : Ink s) : squeeze s = s := List.filter_eq_self.mpr h.all

theorem squeeze_of_blank {s : Text} (h : Blank s) : squeeze s = [] :=
  List.filter_eq_nil_iff.mpr fun c hc => by simp [isInk, h c hc]

theorem ink_squeeze (s : Text) : Ink (squeeze s) := ink_of_all fun _ hc => (List.mem_filter.mp hc).2

theorem trimEnd_of_ink {s : Text} (h : Ink s) : trimEnd s = s := by
  obtain ⟨gap, hgap, hs⟩ := exists_trimEnd_append s
  cases gap with
  | nil => exact (hs.trans (List.append_nil _)).symm
  | cons c gap =>
    have hc := h c (by rw [hs]; simp)
    rw [hgap c (by simp)] at hc
    cases hc

theorem EndsInInk.append {s : Text} (h : EndsInInk s) (t : Text) : EndsInInk (t ++ s) := by
  obtain ⟨front, c, rfl, hc⟩ := h
  exact ⟨t ++ front, c, by rw [List.append_assoc], hc⟩

/-- Blanks behind a text that ends in ink are all that is cut off at the end. -/
theorem EndsInInk.trimEnd_append_blank {s gap : Text} (h : EndsInInk s) (hgap : Blank gap) :
    trimEnd (s ++ gap) = s := by
  obtain ⟨front, c, rfl, hc⟩ := h
  have hlast : Begins [c] := ⟨c, [], rfl, hc⟩
  rw [Text.trimEnd_append_blank hgap, trimEnd_append hlast.not_blank,
    trimEnd_of_ink (ink_singleton hc)]

theorem trim_of_ink {s : Text} (h : Ink s) : trim s = s := by
  unfold trim
  cases s with
  | nil => rfl
  | cons c s => rw [trimStart_of_ink (h c List.mem_cons_self), trimEnd_of_ink h]

/-- Nothing is cut off where a text begins and ends with no blank. -/
theorem trim_concat {s : Text} {c : Char} (hs : Begins (s ++ [c])) (hc : isBlank c = false) :
    trim (s ++ [c]) = s ++ [c] := by
  have hlast : EndsInInk (s ++ [c]) := ⟨s, c, rfl, hc⟩
  have hend := hlast.trimEnd_append_blank blank_nil
  rw [List.append_nil] at hend
  rw [trim, hs.trimStart_eq, hend]

theorem trim_trim (s : Text) : trim (trim s) = trim s := by
  have hend : trimEnd (trim s) = trim s := by
    simp only [trim, trimEnd, List.reverse_reverse, List.dropWhile_idempotent]
  have hstart : trimStart (trim s) = trim s := by
    obtain ⟨gap, -, hs⟩ := exists_trimEnd_append (trimStart s)
    cases htrim : trim s with
    | nil => rfl
    | cons c rest =>
      rw [← trim, htrim] at hs
      refine trimStart_of_ink (head?_dropWhile_eq_false (s := s) ?_)
      rw [← trimStart, hs]
      rfl
  conv_lhs => rw [trim, hstart, hend]

/-- **The second text is the first one without some of its blanks.** -/
inductive Sheds : Text → Text → Prop
  | nil : Sheds [] []
  | keep {c : Char} {s s' : Text} : Sheds s s' → Sheds (c :: s) (c :: s')
  | shed {c : Char} {s s' : Text} : isBlank c = true → Sheds s s' → Sheds (c :: s) s'

namespace Sheds

variable {s s' t t' : Text}

theorem refl (s : Text) : Sheds s s := by
  induction s with
  | nil => exact .nil
  | cons c s ih => exact .keep ih

theorem append (h : Sheds s s') (h' : Sheds t t') : Sheds (s ++ t) (s' ++ t') := by
  induction h with
  | nil => exact h'
  | keep _ ih => exact .keep ih
  | shed hc _ ih => exact .shed hc ih

theorem of_blank (h : Blank s) : Sheds s [] := by
  induction s with
  | nil => exact .nil
  | cons c s ih => exact .shed (h c (by simp)) (ih fun d hd => h d (List.mem_cons_of_mem c hd))

theorem trim (s : Text) : Sheds s (Text.trim s) := by
  obtain ⟨gap, hgap, hs⟩ := exists_trimEnd_append (trimStart s)
  have hfront := (of_blank (blank_leadingBlanks s)).append
    ((refl (trimEnd (trimStart s))).append (of_blank hgap))
  rwa [← hs, leadingBlanks_append_trimStart, List.nil_append, List.append_nil] at hfront

theorem mem (h : Sheds s s') {c : Char} (hc : c ∈ s') : c ∈ s := by
  induction h with
  | nil => exact hc
  | keep _ ih =>
    rcases List.mem_cons.mp hc with rfl | hc
    · exact List.mem_cons_self
    · exact List.mem_cons_of_mem _ (ih hc)
  | shed _ _ ih => exact List.mem_cons_of_mem _ (ih hc)

theorem squeeze_eq (h : Sheds s s') : squeeze s' = squeeze s := by
  induction h with
  | nil => rfl
  | @keep c s s' _ ih =>
    rw [← List.singleton_append, squeeze_append, ih, ← squeeze_append, List.singleton_append]
  | @shed c s s' hc _ ih =>
    rw [ih, squeeze, squeeze, List.filter_cons_of_neg (by simp [isInk, hc])]

theorem eq_of_ink (h : Sheds s s') (hs : Ink s) : s' = s := by
  have hs' : Ink s' := fun c hc => hs c (h.mem hc)
  rw [← squeeze_of_ink hs, ← squeeze_of_ink hs', h.squeeze_eq]

theorem of_append (h : Sheds (s ++ t) s') : ∃ a b, s' = a ++ b ∧ Sheds s a ∧ Sheds t b := by
  induction s generalizing s' with
  | nil => exact ⟨[], s', rfl, .nil, h⟩
  | cons c s ih =>
    rw [List.cons_append] at h
    cases h with
    | keep h =>
      obtain ⟨a, b, rfl, ha, hb⟩ := ih h
      exact ⟨c :: a, b, rfl, .keep ha, hb⟩
    | shed hc h =>
      obtain ⟨a, b, rfl, ha, hb⟩ := ih h
      exact ⟨a, b, rfl, .shed hc ha, hb⟩

/-- A text without blanks in front stays. -/
theorem of_ink_append (hs : Ink s) (h : Sheds (s ++ t) s') : ∃ b, s' = s ++ b ∧ Sheds t b := by
  obtain ⟨a, b, rfl, ha, hb⟩ := h.of_append
  exact ⟨b, by rw [ha.eq_of_ink hs], hb⟩

theorem begins (h : Sheds s s') (hs : Begins s) : Begins s' := by
  obtain ⟨c, rest, rfl, hc⟩ := hs
  obtain ⟨b, rfl, -⟩ := of_ink_append (ink_singleton hc) h
  exact ⟨c, b, rfl, hc⟩

theorem endsInInk (h : Sheds s s') (hs : EndsInInk s) : EndsInInk s' := by
  obtain ⟨front, c, rfl, hc⟩ := hs
  obtain ⟨a, b, rfl, -, hb⟩ := h.of_append
  rw [hb.eq_of_ink (ink_singleton hc)]
  exact ⟨a, c, rfl, hc⟩

end Sheds

end Text

end GridText
