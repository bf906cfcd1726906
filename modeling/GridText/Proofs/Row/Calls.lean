import GridText.Row.Token
import GridText.Proofs.Text.Blank

/-! # Tokens: calls

A call is cut by a scan with one recursive step for each argument. `Arguments` and `IsCall` say of a
whole text that it is what such a scan goes through.

* `call?_eq_some_iff`: what is found at the front of a text is a call, and nothing of what follows
  it was asked for.
* `tokens_eq_cons_iff`, `tokens_induction`: the first token of a text, and the induction over all.
* `tokens_append_blank`, `tokens_trim`: blanks around a text do not matter to its tokens. -/

namespace GridText.Token

open Text (Begins Blank EndsInInk Ink Stops)

variable {s inner after token gap : Text}

/-! ### Arguments -/

theorem isInk_of_isArgumentChar {c : Char} (h : isArgumentChar c = true) : isBlank c = false := by
  simp only [isArgumentChar, isInk, Bool.and_eq_true, Bool.not_eq_true'] at h
  exact h.1.1

theorem isArgumentChar_of_isBlank {c : Char} (h : isBlank c = true) : isArgumentChar c = false := by
  simp [isArgumentChar, isInk, h]

/-- A character that ends an argument without a blank. -/
def IsBracket (c : Char) : Prop := c = '(' ∨ c = ')'

theorem IsBracket.isArgumentChar {c : Char} (h : IsBracket c) : isArgumentChar c = false := by
  rcases h with rfl | rfl <;> rfl

/-- An ink text is either one argument or goes on behind it with a bracket. -/
theorem argument_or_bracket (h : Ink s) : (∀ c ∈ s, isArgumentChar c = true) ∨
    ∃ a c rest, s = a ++ c :: rest ∧ (∀ d ∈ a, isArgumentChar d = true) ∧ IsBracket c := by
  refine (all_or_exists_first isArgumentChar s).imp_right ?_
  rintro ⟨a, c, rest, rfl, ha, hc⟩
  have hink : isBlank c = false := h c (by simp)
  simp only [isArgumentChar, isInk, hink, Bool.not_false, Bool.true_and, Bool.and_eq_false_iff,
    decide_eq_false_iff_not, not_not] at hc
  exact ⟨a, c, rest, rfl, ha, hc⟩

/-- At a bracket the scan ends, whatever stands behind. -/
theorem arguments?_bracket {a : Text} {c : Char} (ha : ∀ d ∈ a, isArgumentChar d = true)
    (hc : IsBracket c) (rest : Text) :
    arguments? (a ++ c :: rest) =
      if a ≠ [] ∧ c = ')' then some (a ++ [')'], rest) else none := by
  have hstop : ∀ d ∈ (c :: rest).head?, isArgumentChar d = false := by
    simpa using hc.isArgumentChar
  have harg : argument (a ++ c :: rest) = a := takeWhile_of_stop ha hstop
  have hrest : afterArgument (a ++ c :: rest) = c :: rest := dropWhile_of_stop ha hstop
  unfold arguments?
  simp only [harg, hrest, List.head?_cons, Option.some.injEq, List.drop_one, List.tail_cons,
    Option.any_some, dite_eq_ite]
  by_cases hnil : a = []
  · simp [hnil]
  · rcases hc with rfl | rfl
    · simp [hnil, show isBlank '(' = false from rfl]
    · simp [hnil]

/-- At a blank the scan goes on with the next argument, if the last one ends in a comma. -/
theorem arguments?_stops {a : Text} (ha : ∀ d ∈ a, isArgumentChar d = true) (hs : Stops s) :
    arguments? (a ++ s) =
      if a ≠ [] ∧ endsInComma a ∧ s ≠ [] then
        (arguments? (Text.trimStart s)).map fun (others, after) =>
          (a ++ Text.leadingBlanks s ++ others, after)
      else none := by
  have hstop : ∀ d ∈ s.head?, isArgumentChar d = false :=
    fun d hd => isArgumentChar_of_isBlank (hs d hd)
  have harg : argument (a ++ s) = a := takeWhile_of_stop ha hstop
  have hrest : afterArgument (a ++ s) = s := dropWhile_of_stop ha hstop
  have hclose : s.head? ≠ some ')' := fun h => absurd (hs _ h) (by decide)
  have hblank : s.head?.any isBlank = true ↔ s ≠ [] := by
    cases s with
    | nil => simp
    | cons c s => simpa using hs c rfl
  rw [arguments?]
  simp only [harg, hrest, hclose, if_false, hblank, dite_eq_ite]
  by_cases hnil : a = []
  · simp [hnil]
  · simp [hnil]

/-- **What stands behind the opening bracket of a call**: arguments, each but the last with a comma
at its end and blanks behind it, and the closing bracket. -/
inductive Arguments : Text → Prop
  | last {a : Text} : a ≠ [] → (∀ c ∈ a, isArgumentChar c = true) → Arguments (a ++ [')'])
  | more {a gap rest : Text} : a ≠ [] → (∀ c ∈ a, isArgumentChar c = true) →
      endsInComma a = true → gap ≠ [] → Blank gap → Arguments rest → Arguments (a ++ (gap ++ rest))

theorem Arguments.begins (h : Arguments s) : Begins s := by
  cases h with
  | last hne ha =>
    obtain ⟨c, a, rfl⟩ := List.exists_cons_of_ne_nil hne
    exact ⟨c, _, rfl, isInk_of_isArgumentChar (ha c (by simp))⟩
  | more hne ha =>
    obtain ⟨c, a, rfl⟩ := List.exists_cons_of_ne_nil hne
    exact ⟨c, _, rfl, isInk_of_isArgumentChar (ha c (by simp))⟩

/-- The scan goes through all arguments and stops behind them. -/
theorem Arguments.scanned (h : Arguments inner) (after : Text) :
    arguments? (inner ++ after) = some (inner, after) := by
  induction h with
  | last hne ha =>
    rw [List.append_assoc, List.singleton_append, arguments?_bracket ha (Or.inr rfl)]
    simp [hne]
  | @more a gap rest hne ha hcomma hgap hblank hrest ih =>
    have hs : Stops (gap ++ (rest ++ after)) := by
      obtain ⟨b, gap, rfl⟩ := List.exists_cons_of_ne_nil hgap
      exact fun d hd => hblank d (by simp_all)
    rw [List.append_assoc, List.append_assoc, arguments?_stops ha hs,
      hrest.begins.leadingBlanks_append hblank, hrest.begins.trimStart_append hblank, ih]
    simp [hne, hcomma, hgap]

theorem arguments_of_arguments? (h : arguments? s = some (inner, after)) : Arguments inner := by
  fun_induction arguments? s generalizing inner after with
  | case1 => simp at h
  | case2 s hne hclose =>
    simp only [Option.some.injEq, Prod.mk.injEq] at h
    obtain ⟨rfl, -⟩ := h
    exact .last hne fun c hc => List.mem_takeWhile_imp hc
  | case3 s hne _ hcomma ih =>
    simp only [Option.map_eq_some_iff, Prod.mk.injEq, Prod.exists] at h
    obtain ⟨others, after', h, rfl, -⟩ := h
    obtain ⟨hcomma, hblank⟩ := hcomma
    have hgap : Text.leadingBlanks (afterArgument s) ≠ [] := by
      cases hrest : afterArgument s with
      | nil => simp [hrest] at hblank
      | cons c rest =>
        have hc : isBlank c = true := by simpa [hrest] using hblank
        simp [Text.leadingBlanks, hc]
    rw [List.append_assoc]
    exact .more hne (fun c hc => List.mem_takeWhile_imp hc) hcomma hgap
      (Text.blank_leadingBlanks _) (ih h)
  | case4 => simp at h

/-! ### Calls -/

/-- A text that is one call. -/
def IsCall (token : Text) : Prop :=
  ∃ name inner, token = name ++ '(' :: inner ∧ name ≠ [] ∧ (∀ c ∈ name, isNameChar c = true) ∧
    Arguments inner

theorem isInk_of_isNameChar {c : Char} (h : isNameChar c = true) : isBlank c = false := by
  simp only [isNameChar, isInk, Bool.and_eq_true, Bool.not_eq_true'] at h
  exact h.1

theorem call?_name {name : Text} (hne : name ≠ []) (hname : ∀ c ∈ name, isNameChar c = true)
    (rest : Text) : call? (name ++ '(' :: rest) =
      (arguments? rest).map fun (inner, after) => (name ++ '(' :: inner, after) := by
  have hstop : ∀ c ∈ ('(' :: rest).head?, isNameChar c = false := by
    rintro c ⟨⟩
    rfl
  obtain ⟨c, name, rfl⟩ := List.exists_cons_of_ne_nil hne
  unfold call?
  rw [takeWhile_of_stop hname hstop, dropWhile_of_stop hname hstop]
  rfl

/-- **A call at the front** is found, and nothing is asked of what follows. -/
theorem call?_eq_some_iff :
    call? s = some (token, after) ↔ IsCall token ∧ s = token ++ after := by
  constructor
  · intro h
    refine ⟨?_, (call?_append h).1.symm⟩
    unfold call? at h
    split at h
    · next c name rest hname hrest =>
      simp only [Option.map_eq_some_iff, Prod.mk.injEq, Prod.exists] at h
      obtain ⟨inner, after', h, rfl, -⟩ := h
      exact ⟨c :: name, inner, rfl, by simp, fun d hd => List.mem_takeWhile_imp (hname ▸ hd),
        arguments_of_arguments? h⟩
    · simp at h
  · rintro ⟨⟨name, inner, rfl, hne, hname, hinner⟩, rfl⟩
    rw [List.append_assoc, List.cons_append, call?_name hne hname, hinner.scanned]
    rfl

theorem IsCall.begins (h : IsCall token) : Begins token := by
  obtain ⟨name, inner, rfl, hne, hname, -⟩ := h
  obtain ⟨c, name, rfl⟩ := List.exists_cons_of_ne_nil hne
  exact ⟨c, _, rfl, isInk_of_isNameChar (hname c (by simp))⟩

/-- An ink text is either a name or goes on behind one with an opening bracket. -/
theorem name_or_open (h : Ink s) : (∀ c ∈ s, isNameChar c = true) ∨
    ∃ name rest, s = name ++ '(' :: rest ∧ ∀ c ∈ name, isNameChar c = true := by
  refine (all_or_exists_first isNameChar s).imp_right ?_
  rintro ⟨name, c, rest, rfl, hname, hc⟩
  have hink : isBlank c = false := h c (by simp)
  simp only [isNameChar, isInk, hink, Bool.not_false, Bool.true_and, decide_eq_false_iff_not,
    not_not] at hc
  exact ⟨name, rest, by rw [hc], hname⟩

theorem call?_open (rest : Text) : call? ('(' :: rest) = none := by
  unfold call?
  rw [List.takeWhile_cons_of_neg (by decide)]

theorem call?_of_stops {name : Text} (hname : ∀ c ∈ name, isNameChar c = true) (hs : Stops s) :
    call? (name ++ s) = none := by
  have hstop : ∀ c ∈ s.head?, isNameChar c = false := by
    intro c hc
    simp [isNameChar, isInk, hs c hc]
  unfold call?
  rw [dropWhile_of_stop hname hstop]
  cases s with
  | nil => split <;> simp_all
  | cons c s =>
    have hc : c ≠ '(' := by
      rintro rfl
      exact absurd (hs '(' rfl) (by decide)
    split <;> simp_all

/-! ### The token at the front -/

/-- What a token is in front of what follows it: a call, or a run without blanks in front of a blank
or the end, where no call begins. -/
inductive Front (token after : Text) : Prop
  | call : IsCall token → Front token after
  | run : token ≠ [] → Ink token → Stops after → call? (token ++ after) = none → Front token after

theorem Front.begins (h : Front token after) : Begins token := by
  cases h with
  | call h => exact h.begins
  | run hne hink => exact hink.begins hne

/-- **The token at the front of a text.** -/
theorem cut_eq_iff (hne : token ≠ []) :
    cut (token ++ after) = (token, after) ↔ Front token after := by
  unfold cut
  cases hcall : call? (token ++ after) with
  | none =>
    simp only [Option.getD_none, Prod.mk.injEq]
    constructor
    · rintro ⟨htake, hdrop⟩
      exact .run hne (htake ▸ Text.ink_takeWhile _) (hdrop ▸ Text.stops_dropWhile_isInk _) hcall
    · rintro (h | ⟨-, hink, hstops, -⟩)
      · rw [call?_eq_some_iff.mpr ⟨h, rfl⟩] at hcall
        cases hcall
      · exact ⟨Text.takeWhile_isInk_append hink hstops, Text.dropWhile_isInk_append hink hstops⟩
  | some found =>
    obtain ⟨token', after'⟩ := found
    obtain ⟨hc, -⟩ := call?_eq_some_iff.mp hcall
    simp only [Option.getD_some, Prod.mk.injEq]
    constructor
    · rintro ⟨rfl, -⟩
      exact .call hc
    · rintro (h | ⟨-, -, -, h⟩)
      · rw [call?_eq_some_iff.mpr ⟨h, rfl⟩] at hcall
        simpa [eq_comm] using hcall
      · rw [h] at hcall
        cases hcall

/-- **The first token of a text** stands behind blanks, and the others are those of what follows. -/
theorem tokens_eq_cons_iff {found : List Text} : tokens s = token :: found ↔
    ∃ gap after, s = gap ++ (token ++ after) ∧ Blank gap ∧ Front token after ∧
      tokens after = found := by
  constructor
  · intro h
    cases hs : Text.trimStart s with
    | nil =>
      rw [tokens_of_trimStart_eq_nil hs] at h
      cases h
    | cons c rest =>
      rw [tokens_of_trimStart_eq_cons hs] at h
      obtain ⟨rfl, rfl⟩ := List.cons.inj h
      have hc : isBlank c = false :=
        head?_dropWhile_eq_false (by rw [← Text.trimStart, hs]; rfl)
      refine ⟨Text.leadingBlanks s, (cut (c :: rest)).2, ?_, Text.blank_leadingBlanks s, ?_, rfl⟩
      · rw [cut_append, ← hs, Text.leadingBlanks_append_trimStart]
      · rw [← cut_eq_iff (cut_ne_nil hc rest), cut_append]
  · rintro ⟨gap, after, rfl, hgap, hfront, rfl⟩
    have hs := hfront.begins.trimStart_append hgap after
    obtain ⟨c, rest, rfl, -⟩ := hfront.begins
    have hcut := (cut_eq_iff (List.cons_ne_nil c rest)).mpr hfront
    rw [List.cons_append] at hs hcut
    rw [List.cons_append, tokens_of_trimStart_eq_cons hs, hcut]

theorem Front.tokens_cons (h : Front token after) (hgap : Blank gap) :
    tokens (gap ++ (token ++ after)) = token :: tokens after :=
  tokens_eq_cons_iff.mpr ⟨gap, after, rfl, hgap, h, rfl⟩

/-- **Induction over the tokens of a text**: it is blank, or a token stands behind a gap and in
front of a text with one token less. -/
@[elab_as_elim]
theorem tokens_induction {motive : Text → Prop} (blank : ∀ s, Blank s → motive s)
    (token : ∀ gap token after, Blank gap → Front token after → motive after →
      motive (gap ++ (token ++ after))) (s : Text) : motive s := by
  generalize hfound : tokens s = found
  induction found generalizing s with
  | nil => exact blank s (tokens_eq_nil_iff.mp hfound)
  | cons first found ih =>
    obtain ⟨gap, after, rfl, hgap, hfront, hafter⟩ := tokens_eq_cons_iff.mp hfound
    exact token gap first after hgap hfront (ih after hafter)

theorem front_of_mem_tokens (h : token ∈ tokens s) :
    (∃ after, Front token after) ∧ ∀ c ∈ token, c ∈ s := by
  induction s using tokens_induction with
  | blank s hs =>
    rw [tokens_eq_nil_iff.mpr hs] at h
    cases h
  | token gap first after hgap hfront ih =>
    rw [hfront.tokens_cons hgap] at h
    rcases List.mem_cons.mp h with rfl | h
    · exact ⟨⟨after, hfront⟩, fun c hc => by simp [hc]⟩
    · obtain ⟨hfront', hmem⟩ := ih h
      exact ⟨hfront', fun c hc => by simp [hmem c hc]⟩

theorem begins_of_mem_tokens (h : token ∈ tokens s) : Begins token := by
  obtain ⟨⟨after, hfront⟩, -⟩ := front_of_mem_tokens h
  exact hfront.begins

/-! ### The ends of tokens -/

theorem Arguments.exists_concat (h : Arguments s) : ∃ front, s = front ++ [')'] := by
  induction h with
  | @last a _ _ => exact ⟨a, rfl⟩
  | @more a gap _ _ _ _ _ _ _ ih =>
    obtain ⟨front, rfl⟩ := ih
    exact ⟨a ++ (gap ++ front), by simp⟩

theorem IsCall.exists_concat (h : IsCall token) : ∃ front, token = front ++ [')'] := by
  obtain ⟨name, inner, rfl, -, -, hinner⟩ := h
  obtain ⟨front, rfl⟩ := hinner.exists_concat
  exact ⟨name ++ '(' :: front, by simp⟩

theorem IsCall.exists_concat_ink (h : IsCall token) : EndsInInk token := by
  obtain ⟨front, rfl⟩ := h.exists_concat
  exact ⟨front, ')', rfl, rfl⟩

theorem Front.exists_concat_ink (h : Front token after) : EndsInInk token := by
  cases h with
  | call hcall => exact hcall.exists_concat_ink
  | run hne hink =>
    obtain ⟨front, c, rfl⟩ := (List.eq_nil_or_concat' token).resolve_left hne
    exact ⟨front, c, rfl, hink c (by simp)⟩

/-! ### Blanks around a text -/

/-- A call does not reach into blanks at the end of a text. -/
theorem IsCall.of_append_blank (h : IsCall token) (hgap : Blank gap)
    (he : s ++ gap = token ++ after) : ∃ rest, s = token ++ rest := by
  obtain ⟨front, rfl⟩ := h.exists_concat
  rcases List.append_eq_append_iff.mp he with ⟨w, hw, hgap'⟩ | ⟨w, rfl, -⟩
  · rcases List.eq_nil_or_concat w with rfl | ⟨w, c, rfl⟩
    · exact ⟨[], by simpa using hw.symm⟩
    · rw [List.concat_eq_append, ← List.append_assoc] at hw
      obtain ⟨-, hc⟩ := List.append_inj' hw rfl
      obtain rfl : ')' = c := by simpa using hc
      exact absurd (hgap ')' (by simp [hgap'])) (by decide)
  · exact ⟨w, rfl⟩

theorem Front.append_blank (h : Front token after) (hgap : Blank gap) :
    Front token (after ++ gap) := by
  cases h with
  | call h => exact .call h
  | run hne hink hstops hnone =>
    refine .run hne hink (hstops.append hgap.stops) ?_
    rw [Option.eq_none_iff_forall_ne_some]
    rintro ⟨token', after'⟩ hcall
    obtain ⟨hc, he⟩ := call?_eq_some_iff.mp hcall
    rw [← List.append_assoc] at he
    obtain ⟨rest, he⟩ := hc.of_append_blank hgap he
    rw [call?_eq_some_iff.mpr ⟨hc, he⟩] at hnone
    cases hnone

theorem tokens_append_blank (hgap : Blank gap) : tokens (s ++ gap) = tokens s := by
  induction s using tokens_induction with
  | blank s hs => rw [tokens_eq_nil_iff.mpr hs, tokens_eq_nil_iff.mpr (hs.append hgap)]
  | token before token after hbefore hfront ih =>
    rw [List.append_assoc, List.append_assoc, (hfront.append_blank hgap).tokens_cons hbefore,
      hfront.tokens_cons hbefore, ih]

theorem tokens_blank_append (hgap : Blank gap) : tokens (gap ++ s) = tokens s := by
  cases hfound : tokens s with
  | nil =>
    rw [tokens_eq_nil_iff] at hfound ⊢
    exact hgap.append hfound
  | cons token found =>
    obtain ⟨before, after, rfl, hbefore, hfront, hafter⟩ := tokens_eq_cons_iff.mp hfound
    have hblank := hgap.append hbefore
    exact tokens_eq_cons_iff.mpr ⟨gap ++ before, after, by simp, hblank, hfront, hafter⟩

theorem tokens_trimEnd (s : Text) : tokens (Text.trimEnd s) = tokens s := by
  obtain ⟨gap, hgap, hs⟩ := Text.exists_trimEnd_append s
  conv_rhs => rw [hs]
  rw [tokens_append_blank hgap]

/-- **Blanks around a text do not matter to its tokens.** -/
theorem tokens_trim (s : Text) : tokens (Text.trim s) = tokens s := by
  conv_rhs => rw [← Text.leadingBlanks_append_trimStart s]
  rw [Text.trim, tokens_trimEnd, tokens_blank_append (Text.blank_leadingBlanks s)]

end GridText.Token
