import GridText.Proofs.Row.Alignment

/-! # Separators inside calls

A call keeps its blanks when its row is cut into tokens, and loses those beside a separator when its
cell is written. Under a comma it loses all of them and is a call again. Under a blank its gaps
change and stay gaps; under a bracket there is no blank to lose. Under any other character `d` the
call `d(d, d, ,)` is written as `d(d,d, ,)`, of which the first argument holds two commas, so that it
is cut at its blank.

* `Token.IsCall.tidy`, `Cell.restored_of_separator`: what is read under a blank or a bracket comes
  back from its text.
* `not_restored_cutCall`: under any other character but a comma, one call does not. -/

namespace GridText

open Text (Alike Begins Blank Ink Stops runs)
open Token (Arguments IsCall tokens)

variable {rules : Rules} {d : Char} {s token : Text}

/-! ### Trimmed parts -/

namespace Text

theorem runs_joinWith (hd : isBlank d = true) (parts : List Text) :
    runs (joinWith [d] parts) = parts.flatMap runs := by
  induction parts with
  | nil => simp [joinWith, runs]
  | cons part parts ih =>
    cases parts with
    | nil => rw [joinWith_singleton, List.flatMap_singleton]
    | cons second parts =>
      rw [joinWith_cons_cons, List.append_assoc, List.singleton_append, runs_append_cons hd, ih]
      rfl

theorem runs_tidy (hd : isBlank d = true) (s : Text) : runs (tidy [d] s) = runs s := by
  conv_rhs => rw [← joinWith_splitOn (List.cons_ne_nil d []) s]
  rw [tidy, runs_joinWith hd, runs_joinWith hd, List.flatMap_map]
  exact List.flatMap_congr fun part _ => runs_trim part

theorem tidy_of_not_mem (h : d ∉ s) : tidy [d] s = trim s := by
  have hsplit := splitOn_joinWith (List.cons_ne_nil s []) (List.forall_mem_singleton.mpr h)
  rw [joinWith_singleton] at hsplit
  rw [tidy, hsplit, List.map_singleton, joinWith_singleton]

theorem tidy_concat (h : d ∉ s) : tidy [d] (s ++ [d]) = trim s ++ [d] := by
  have hsplit : splitOn [d] (joinWith [d] [s, []]) = [s, []] :=
    splitOn_joinWith (by simp) (by simp [h])
  rw [joinWith_cons_cons, joinWith_singleton, List.append_nil] at hsplit
  rw [tidy, hsplit, List.map_cons, List.map_singleton, joinWith_cons_cons, joinWith_singleton]
  exact List.append_nil _

theorem trim_cons {c : Char} (hc : isBlank c = false) (hs : s = [] ∨ Begins s) :
    trim (c :: s) = c :: trim s := by
  rcases hs with rfl | hs
  · exact trim_of_ink (ink_singleton hc)
  · rw [trim, trimStart_of_ink hc, ← List.singleton_append, trimEnd_append hs.not_blank, trim,
      hs.trimStart_eq]
    rfl

/-- **What stands in front without blanks stays**, separators and all. -/
theorem tidy_ink_append {word : Text} (hword : Ink word) (hs : Begins s) :
    tidy [d] (word ++ s) = word ++ tidy [d] s := by
  induction word with
  | nil => rfl
  | cons c word ih =>
    obtain ⟨hc, hword⟩ := List.forall_mem_cons.mp hword
    have hbegins : Begins (word ++ s) := by
      cases word with
      | nil => exact hs
      | cons e word => exact ⟨e, word ++ s, rfl, hword e List.mem_cons_self⟩
    obtain ⟨e, rest, he, hink⟩ := hbegins
    obtain ⟨part, parts, hparts⟩ := List.exists_cons_of_ne_nil (splitOn_ne_nil [d] (word ++ s))
    rw [List.cons_append, List.cons_append, ← ih hword, tidy, splitOn_singleton_cons, tidy, hparts]
    split_ifs with hcd
    · rw [List.map_cons, hcd, List.map_cons, joinWith_cons_cons]
      rfl
    · -- the first part goes on with the first character of the rest, or is empty
      have hpart : part = [] ∨ Begins part := by
        rw [he, splitOn_singleton_cons] at hparts
        split_ifs at hparts
        · exact Or.inl (List.cons.inj hparts).1.symm
        · obtain ⟨first, others, hfirst⟩ := List.exists_cons_of_ne_nil (splitOn_ne_nil [d] rest)
          rw [hfirst, List.modifyHead_cons] at hparts
          exact Or.inr ⟨e, first, (List.cons.inj hparts).1.symm, hink⟩
      rw [List.modifyHead_cons, List.map_cons, trim_cons hc hpart, List.map_cons]
      exact joinWith_modifyHead [d] c (List.cons_ne_nil (trim part) _)

end Text

/-! ### Calls -/

namespace Token

theorem Arguments.exists_concat_ink (h : Arguments s) :
    ∃ front c, s = front ++ [c] ++ [')'] ∧ isBlank c = false := by
  induction h with
  | @last a hne ha =>
    obtain ⟨front, c, rfl⟩ := (List.eq_nil_or_concat' a).resolve_left hne
    exact ⟨front, c, rfl, isInk_of_isArgumentChar (ha c (by simp))⟩
  | @more a gap _ _ _ _ _ _ _ ih =>
    obtain ⟨front, c, rfl, hc⟩ := ih
    exact ⟨a ++ (gap ++ front), c, by simp, hc⟩

/-- Under a blank or a bracket, arguments stay arguments. -/
theorem Arguments.tidy (h : Arguments s) (hd : isBlank d = true ∨ d = '(' ∨ d = ')') :
    Arguments (Text.tidy [d] s) := by
  obtain ⟨front, c, hs, hc⟩ := h.exists_concat_ink
  obtain ⟨inner, hinner, hclosed⟩ := h.closed
  obtain rfl : inner = front ++ [c] := (List.append_inj' (hinner.symm.trans hs) rfl).1
  have htrim : Text.trim s = s := by
    rw [hs]
    exact Text.trim_concat (hs ▸ h.begins) rfl
  rcases hd with hd | rfl | rfl
  · have hsheds := Text.sheds_tidy (List.cons_ne_nil d []) s
    obtain ⟨a, b, htidy, -, hb⟩ := (hs ▸ hsheds).of_append
    obtain rfl := hb.eq_of_ink (Text.ink_singleton rfl)
    have halike := Alike.of_runs (Text.runs_tidy hd s).symm
    have htrim' : Text.trim (Text.tidy [d] s) = Text.tidy [d] s := by
      have hbegins := hsheds.begins h.begins
      rw [hs, htidy] at hbegins ⊢
      exact Text.trim_concat hbegins rfl
    rw [htrim, htrim'] at halike
    exact h.alike halike
  · have hopen : '(' ∉ s := by
      rw [hinner]
      intro hmem
      rcases List.mem_append.mp hmem with hmem | hmem
      · exact (hclosed _ hmem).1 rfl
      · cases List.mem_singleton.mp hmem
    rw [Text.tidy_of_not_mem hopen, htrim]
    exact h
  · have hbegins : Begins (front ++ [c]) := (hs ▸ h.begins).of_append (by simp)
    rw [hs, Text.tidy_concat (fun hmem => (hclosed _ hmem).2 rfl), Text.trim_concat hbegins hc, ← hs]
    exact h

/-- **Under a blank or a bracket a call stays a call.** -/
theorem IsCall.tidy (h : IsCall token) (hd : isBlank d = true ∨ d = '(' ∨ d = ')') :
    IsCall (Text.tidy [d] token) := by
  obtain ⟨name, inner, rfl, hne, hname, hinner⟩ := h
  refine ⟨name, Text.tidy [d] inner, ?_, hne, hname, hinner.tidy hd⟩
  rw [List.append_cons, Text.tidy_ink_append (ink_open hname) hinner.begins, ← List.append_cons]

theorem tokens_tidy (h : token ∈ tokens s) (hd : isBlank d = true ∨ d = '(' ∨ d = ')') :
    tokens (Text.tidy [d] token) = [Text.tidy [d] token] := by
  obtain ⟨⟨after, hfront⟩, -⟩ := front_of_mem_tokens h
  cases hfront with
  | call hcall =>
    have hfront : Front (Text.tidy [d] token) after := .call (hcall.tidy hd)
    exact hfront.tokens_eq
  | run hne hink =>
    rw [(Text.sheds_tidy (List.cons_ne_nil d []) token).eq_of_ink hink]
    exact tokens_of_mem_tokens h

end Token

/-! ### Cells -/

namespace Cell

theorem parts_tidy (hsep : rules.separator = [d]) (s : Text) :
    parts rules (Text.tidy [d] s) = parts rules s := by
  have hpart : ∀ part ∈ (Text.splitOn [d] s).map Text.trim, d ∉ part :=
    List.forall_mem_map.mpr fun part hpart hd =>
      Text.not_mem_of_mem_splitOn hpart (Text.mem_of_mem_trim hd)
  have hne : (Text.splitOn [d] s).map Text.trim ≠ [] := by simp [Text.splitOn_ne_nil]
  rw [parts, parts, hsep, Text.tidy, Text.splitOn_joinWith hne hpart, List.map_map]
  exact List.map_congr_left fun part _ => Text.trim_trim part

/-- **Under a blank or a bracket** all cells that are read come back. -/
theorem restored_of_separator (hsep : rules.separator = [d])
    (hd : isBlank d = true ∨ d = '(' ∨ d = ')') (h : token ∈ tokens s) :
    Restored rules (ofEntry rules token) := by
  unfold Restored
  rw [write_ofEntry (by simp [hsep]) (Token.begins_of_mem_tokens h), hsep, Token.tokens_tidy h hd,
    List.map_singleton, ofEntry, parts_tidy hsep]
  rfl

end Cell

/-! ### A call that is cut -/

/-- The call `d(d, d, ,)`. -/
def cutCall (d : Char) : Text := [d, '(', d, ',', ' ', d, ',', ' ', ',', ')']

section CutCall
variable (hink : isBlank d = false) (hcomma : d ≠ ',') (hopen : d ≠ '(') (hclose : d ≠ ')')
include hink hcomma hopen hclose

theorem isCall_cutCall : IsCall (cutCall d) := by
  have hname : ∀ c ∈ [d], Token.isNameChar c = true :=
    List.forall_mem_singleton.mpr (by simp [Token.isNameChar, isInk, hink, hopen])
  have hargs : ∀ c ∈ [d, ','], Token.isArgumentChar c = true := by
    refine List.forall_mem_cons.mpr ⟨?_, List.forall_mem_singleton.mpr rfl⟩
    simp [Token.isArgumentChar, isInk, hink, hopen, hclose]
  have hends : Token.endsInComma [d, ','] = true := by
    simp [Token.endsInComma, Ne.symm hcomma]
  have hgap : Blank [' '] := by decide
  have hlast : Arguments ([','] ++ [')']) := .last (by simp) (List.forall_mem_singleton.mpr rfl)
  have hmore : Arguments ([d, ','] ++ ([' '] ++ ([','] ++ [')']))) :=
    .more (by simp) hargs hends (by simp) hgap hlast
  exact ⟨[d], [d, ','] ++ ([' '] ++ ([d, ','] ++ ([' '] ++ ([','] ++ [')'])))), rfl, by simp, hname,
    .more (by simp) hargs hends (by simp) hgap hmore⟩

theorem map_trim_splitOn_cutCall : (Text.splitOn [d] (cutCall d)).map Text.trim =
    [[], ['('], [','], [',', ' ', ',', ')']] := by
  have hspace : d ≠ ' ' := by
    rintro rfl
    exact absurd hink (by decide)
  have hsplit : Text.splitOn [d] (Text.joinWith [d] [[], ['('], [',', ' '], [',', ' ', ',', ')']]) =
      [[], ['('], [',', ' '], [',', ' ', ',', ')']] :=
    Text.splitOn_joinWith (by simp) (by simp [hcomma, hopen, hclose, hspace])
  rw [show cutCall d = Text.joinWith [d] [[], ['('], [',', ' '], [',', ' ', ',', ')']] from rfl,
    hsplit]
  decide

/-- **What is written of the call** is cut at the blank that is left. -/
theorem tokens_tidy_cutCall : tokens (Text.tidy [d] (cutCall d)) =
    [[d, '(', d, ',', d, ','], [',', ')']] := by
  have htidy : Text.tidy [d] (cutCall d) = [d, '(', d, ',', d, ','] ++ [' ', ',', ')'] := by
    rw [Text.tidy, map_trim_splitOn_cutCall hink hcomma hopen hclose]
    rfl
  have hname : ∀ c ∈ [d], Token.isNameChar c = true :=
    List.forall_mem_singleton.mpr (by simp [Token.isNameChar, isInk, hink, hopen])
  have hargs : ∀ c ∈ [d, ',', d, ','], Token.isArgumentChar c = true := by
    have hd : Token.isArgumentChar d = true := by
      simp [Token.isArgumentChar, isInk, hink, hopen, hclose]
    simp [hd]
    decide
  have hstops : Stops [' ', ',', ')'] := by
    rintro c ⟨⟩
    rfl
  have hnone : Token.call? ([d, '(', d, ',', d, ','] ++ [' ', ',', ')']) = none := by
    show Token.call? ([d] ++ '(' :: ([d, ',', d, ','] ++ [' ', ',', ')'])) = none
    rw [Token.call?_name (by simp) hname, Token.arguments?_stops hargs hstops, if_neg]
    · rfl
    · simp [Token.endsInComma]
  have hword : Ink [d, '(', d, ',', d, ','] := by
    have hmarks : isBlank '(' = false ∧ isBlank ',' = false := by decide
    simp [Ink, hink, hmarks]
  have hlast : tokens [' ', ',', ')'] = [[',', ')']] := by
    have hspaced : Token.Spaced [[',', ')']] ([' '] ++ ([',', ')'] ++ [])) :=
      .cons (by decide) Text.blank_nil.stops (.nil Text.blank_nil)
    refine Token.tokens_of_solid hspaced (List.forall_mem_singleton.mpr (.plain (by simp) ?_))
    exact List.all_eq_true.mp (by decide)
  rw [htidy]
  exact Token.tokens_eq_cons_iff.mpr ⟨[], _, rfl, Text.blank_nil,
    .run (by simp) hword hstops hnone, hlast⟩

theorem not_restored_cutCall (hsep : rules.separator = [d]) :
    ¬ Cell.Restored rules (Cell.ofEntry rules (cutCall d)) := by
  have hcall := isCall_cutCall hink hcomma hopen hclose
  unfold Cell.Restored
  rw [Cell.write_ofEntry (by simp [hsep]) hcall.begins, hsep,
    tokens_tidy_cutCall hink hcomma hopen hclose]
  intro he
  exact absurd (congrArg List.length he) (by simp)

end CutCall

end GridText
