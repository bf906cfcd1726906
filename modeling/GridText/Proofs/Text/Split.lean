import GridText.Text.Split
import GridText.Proofs.Text.Blank
import Mathlib.Data.List.Chain
import Mathlib.Data.List.Forall2

/-! # Text: splitting at one character

* `joinWith_append`, `joinWith_flatten`: joining what is joined already.
* `splitOn_joinWith`: splitting undoes joining.
* `splitOn_filter`: dropping other characters and splitting commute.
* `infix_of_mem_splitOn`, `not_mem_of_mem_splitOn`: a part stands in the text and does not hold the
  separator.
* `map_trim_splitOn`: where blanks stand only behind separators and blanks, trimming the parts drops
  all blanks. -/

namespace GridText.Text

variable {d : Char}

theorem joinWith_singleton (separator part : Text) : joinWith separator [part] = part :=
  List.intercalate_singleton

theorem joinWith_cons_cons (separator first second : Text) (others : List Text) :
    joinWith separator (first :: second :: others) =
      first ++ separator ++ joinWith separator (second :: others) :=
  List.intercalate_cons_cons

theorem joinWith_append (separator : Text) {parts parts' : List Text} (h : parts ≠ [])
    (h' : parts' ≠ []) : joinWith separator (parts ++ parts') =
      joinWith separator parts ++ separator ++ joinWith separator parts' := by
  induction parts with
  | nil => exact absurd rfl h
  | cons first parts ih =>
    cases parts with
    | nil =>
      obtain ⟨second, others, rfl⟩ := List.exists_cons_of_ne_nil h'
      rw [joinWith_singleton, List.singleton_append, joinWith_cons_cons]
    | cons second parts =>
      have hrest := ih (List.cons_ne_nil second parts)
      rw [List.cons_append] at hrest
      rw [List.cons_append, List.cons_append, joinWith_cons_cons, joinWith_cons_cons, hrest]
      simp only [List.append_assoc]

/-- **Joining what is joined already** is joining all at once, if there is something to join in each
part. -/
theorem joinWith_flatten (separator : Text) {parts : List (List Text)}
    (h : ∀ part ∈ parts, part ≠ []) :
    joinWith separator (parts.map (joinWith separator)) = joinWith separator parts.flatten := by
  induction parts with
  | nil => rfl
  | cons part parts ih =>
    obtain ⟨hpart, hparts⟩ := List.forall_mem_cons.mp h
    cases parts with
    | nil => rw [List.map_singleton, joinWith_singleton, List.flatten_singleton]
    | cons second parts =>
      have hne : (second :: parts).flatten ≠ [] := by
        rw [List.flatten_cons]
        exact List.append_ne_nil_of_left_ne_nil (hparts second List.mem_cons_self) _
      rw [List.map_cons, List.map_cons, joinWith_cons_cons, ← List.map_cons, ih hparts,
        @List.flatten_cons _ part, joinWith_append separator hpart hne]

/-- Parts of the same lengths are joined to texts of one length. -/
theorem length_joinWith_congr (d e : Char) {parts parts' : List Text}
    (h : List.Forall₂ (fun part part' => part.length = part'.length) parts parts') :
    (joinWith [d] parts).length = (joinWith [e] parts').length := by
  induction h with
  | nil => rfl
  | @cons part part' parts parts' hpart hrest ih =>
    cases hrest with
    | nil =>
      rw [joinWith_singleton, joinWith_singleton]
      exact hpart
    | cons hsecond hrest =>
      simp only [joinWith_cons_cons, List.length_append, ih, hpart]
      rfl

/-- The last part stands at the end. -/
theorem exists_joinWith_concat (separator : Text) (parts : List Text) (last : Text) :
    ∃ front, joinWith separator (parts ++ [last]) = front ++ last := by
  by_cases hnil : parts = []
  · subst hnil
    exact ⟨[], joinWith_singleton separator last⟩
  · refine ⟨joinWith separator parts ++ separator, ?_⟩
    rw [joinWith_append separator hnil (List.cons_ne_nil last []), joinWith_singleton]

theorem splitOn_singleton_cons (d c : Char) (rest : Text) :
    splitOn [d] (c :: rest) =
      if c = d then [] :: splitOn [d] rest else (splitOn [d] rest).modifyHead (c :: ·) := by
  rw [splitOn]
  by_cases h : c = d
  · simp [h]
  · simp [h, Ne.symm h]

/-- **Dropping other characters and splitting commute.** -/
theorem splitOn_filter {p : Char → Bool} (hd : p d = true) (s : Text) :
    splitOn [d] (s.filter p) = (splitOn [d] s).map (List.filter p) := by
  induction s with
  | nil => simp [splitOn]
  | cons c s ih =>
    obtain ⟨part, parts, hparts⟩ := List.exists_cons_of_ne_nil (splitOn_ne_nil [d] s)
    rw [splitOn_singleton_cons d c s]
    by_cases hcd : c = d
    · rw [List.filter_cons_of_pos (hcd ▸ hd), splitOn_singleton_cons, if_pos hcd, if_pos hcd, ih]
      rfl
    · by_cases hc : p c = true
      · rw [List.filter_cons_of_pos hc, splitOn_singleton_cons, if_neg hcd, if_neg hcd, ih, hparts]
        simp [hc]
      · rw [List.filter_cons_of_neg hc, if_neg hcd, ih, hparts]
        simp [hc]

theorem not_mem_of_mem_splitOn {s part : Text} (h : part ∈ splitOn [d] s) : d ∉ part := by
  induction s generalizing part with
  | nil =>
    obtain rfl : part = [] := by simpa [splitOn] using h
    simp
  | cons c s ih =>
    obtain ⟨first, parts, hparts⟩ := List.exists_cons_of_ne_nil (splitOn_ne_nil [d] s)
    rw [splitOn_singleton_cons, hparts] at h
    rw [hparts] at ih
    split_ifs at h with hcd
    · rcases List.mem_cons.mp h with rfl | h
      · simp
      · exact ih h
    · rcases List.mem_cons.mp h with rfl | h
      · exact List.not_mem_cons_of_ne_of_not_mem (Ne.symm hcd) (ih (by simp))
      · exact ih (List.mem_cons_of_mem _ h)

/-- A text without the separator goes to the first part. -/
theorem splitOn_append {part : Text} (h : d ∉ part) (rest : Text) :
    splitOn [d] (part ++ rest) = (splitOn [d] rest).modifyHead (part ++ ·) := by
  induction part with
  | nil =>
    obtain ⟨first, others, hfirst⟩ := List.exists_cons_of_ne_nil (splitOn_ne_nil [d] rest)
    rw [List.nil_append, hfirst]
    rfl
  | cons c part ih =>
    have hc : c ≠ d := Ne.symm (List.ne_of_not_mem_cons h)
    rw [List.cons_append, splitOn_singleton_cons, if_neg hc, ih (List.not_mem_of_not_mem_cons h),
      List.modifyHead_modifyHead]
    rfl

/-- **Splitting undoes joining** of parts without the separator. -/
theorem splitOn_joinWith {parts : List Text} (hne : parts ≠ []) (h : ∀ part ∈ parts, d ∉ part) :
    splitOn [d] (joinWith [d] parts) = parts := by
  induction parts with
  | nil => exact absurd rfl hne
  | cons part parts ih =>
    obtain ⟨hd, hrest⟩ := List.forall_mem_cons.mp h
    cases parts with
    | nil =>
      have hsplit := splitOn_append hd []
      rw [List.append_nil, splitOn] at hsplit
      rw [joinWith_singleton, hsplit]
      simp
    | cons second parts =>
      rw [joinWith_cons_cons, List.append_assoc, splitOn_append hd, List.singleton_append,
        splitOn_singleton_cons, if_pos rfl, ih (List.cons_ne_nil second parts) hrest]
      simp

theorem infix_of_mem_splitOn {s part : Text} (h : part ∈ splitOn [d] s) : part <:+: s := by
  have hjoin : joinWith [d] (splitOn [d] s) = s := joinWith_splitOn (List.cons_ne_nil d []) s
  obtain ⟨front, after, he⟩ := List.append_of_mem h
  rw [← hjoin, he]
  clear hjoin he h
  induction front with
  | nil =>
    cases after with
    | nil =>
      exact ⟨[], [], by simp [joinWith_singleton]⟩
    | cons second after =>
      rw [List.nil_append, joinWith_cons_cons, List.append_assoc]
      exact (List.prefix_append _ _).isInfix
  | cons first front ih =>
    obtain ⟨second, others, he⟩ := List.exists_cons_of_ne_nil
      (List.append_ne_nil_of_right_ne_nil front (List.cons_ne_nil part after))
    rw [he] at ih
    rw [List.cons_append, he, joinWith_cons_cons]
    exact ih.trans (List.suffix_append _ _).isInfix

theorem mem_joinWith {separator : Text} {parts : List Text} {c : Char}
    (h : c ∈ joinWith separator parts) : c ∈ separator ∨ ∃ part ∈ parts, c ∈ part := by
  induction parts with
  | nil => cases h
  | cons part parts ih =>
    cases parts with
    | nil =>
      rw [joinWith_singleton] at h
      exact Or.inr ⟨part, List.mem_cons_self, h⟩
    | cons second parts =>
      rw [joinWith_cons_cons, List.mem_append, List.mem_append] at h
      rcases h with (h | h) | h
      · exact Or.inr ⟨part, List.mem_cons_self, h⟩
      · exact Or.inl h
      · refine (ih h).imp_right ?_
        rintro ⟨other, hother, hc⟩
        exact ⟨other, List.mem_cons_of_mem part hother, hc⟩

theorem mem_joinWith_of_mem (separator : Text) {parts : List Text} {part : Text}
    (hpart : part ∈ parts) {c : Char} (hc : c ∈ part) : c ∈ joinWith separator parts := by
  induction parts with
  | nil => cases hpart
  | cons first parts ih =>
    cases parts with
    | nil =>
      obtain rfl := List.mem_singleton.mp hpart
      rwa [joinWith_singleton]
    | cons second parts =>
      rw [joinWith_cons_cons]
      rcases List.mem_cons.mp hpart with rfl | hpart
      · exact List.mem_append_left _ (List.mem_append_left _ hc)
      · exact List.mem_append_right _ (ih hpart)

/-- A text without the blanks around its parts. -/
def tidy (separator s : Text) : Text := joinWith separator ((splitOn separator s).map trim)

theorem sheds_joinWith (separator : Text) {parts parts' : List Text}
    (h : List.Forall₂ Sheds parts parts') :
    Sheds (joinWith separator parts) (joinWith separator parts') := by
  induction h with
  | nil => exact .nil
  | @cons part part' parts parts' hpart hrest ih =>
    cases hrest with
    | nil =>
      rw [joinWith_singleton, joinWith_singleton]
      exact hpart
    | cons hsecond hrest =>
      rw [joinWith_cons_cons, joinWith_cons_cons]
      exact (hpart.append (Sheds.refl separator)).append ih

theorem sheds_tidy {separator : Text} (h : separator ≠ []) (s : Text) :
    Sheds s (tidy separator s) := by
  have hparts : List.Forall₂ Sheds (splitOn separator s) ((splitOn separator s).map trim) := by
    rw [List.forall₂_map_right_iff]
    exact List.forall₂_same.mpr fun part _ => Sheds.trim part
  have hjoin := sheds_joinWith separator hparts
  rwa [joinWith_splitOn h] at hjoin

/-! ### Trimmed parts -/

/-- Where blanks stand only in front, trimming drops all of them. -/
theorem trim_eq_squeeze {s : Text} (h : s.IsChain fun c d => isBlank d = true → isBlank c = true) :
    trim s = squeeze s := by
  induction s with
  | nil => rfl
  | cons c s ih =>
    cases hc : isBlank c with
    | true =>
      have hstart : trimStart (c :: s) = trimStart s := by simp [trimStart, hc]
      have hsqueeze : squeeze (c :: s) = squeeze s :=
        List.filter_cons_of_neg (by simp [isInk, hc])
      rw [trim, hstart, ← trim, ih h.tail, hsqueeze]
    | false =>
      have hrest : Ink s := by
        refine h.cons_induction (isBlank · = false) s (fun x y hxy hx => ?_) hc
        exact Bool.eq_false_iff.mpr fun hy => by simp [hxy hy] at hx
      have hink : Ink (c :: s) := List.forall_mem_cons.mpr ⟨hc, hrest⟩
      rw [trim, trimStart_of_ink hc, trimEnd_of_ink hink, squeeze_of_ink hink]

/-- Blanks stand only behind blanks and this separator. -/
def Spread (d : Char) (s : Text) : Prop :=
  s.IsChain fun x y => isBlank y = true → isBlank x = true ∨ x = d

/-- **Trimming the parts drops all blanks**, where these stand only behind separators and blanks. -/
theorem map_trim_splitOn {s : Text} (hd : isBlank d = false) (h : Spread d s) :
    (splitOn [d] s).map trim = splitOn [d] (squeeze s) := by
  rw [squeeze, splitOn_filter (isInk_eq_true_iff.mpr hd)]
  refine List.map_congr_left fun part hpart => trim_eq_squeeze ?_
  have hchain := List.IsChain.infix h (infix_of_mem_splitOn hpart)
  refine hchain.imp_of_mem_imp fun x y hx _ hxy hy => ?_
  exact (hxy hy).resolve_right fun he => not_mem_of_mem_splitOn hpart (he ▸ hx)

theorem spread_of_ink {s : Text} (h : Ink s) : Spread d s := by
  refine (List.pairwise_of_forall_mem_list fun x _ y hy hblank => ?_).isChain
  rw [h y hy] at hblank
  cases hblank

theorem spread_of_blank {s : Text} (h : Blank s) : Spread d s :=
  (List.pairwise_of_forall_mem_list fun x hx _ _ _ => Or.inl (h x hx)).isChain

end GridText.Text
