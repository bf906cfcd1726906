import GridText.Proofs.Row.Calls
import Mathlib.Data.List.Forall2

/-! # Tokens: other blanks between them

The tokens of a row can be set apart by other blanks, and the blanks inside a call can be dropped,
without two tokens growing together. This is the danger: `f(a,` and `b)` with a blank between them
are one call. But a token that is no call was refused as the beginning of one because of what follows
it, and the scan gets no further when the tokens behind it are spaced in another way
(`arguments?_of_spaced`). A call that loses blanks may be cut into several tokens, `f(a, b, c)` as
`f(a,b,` and `c)`. Since it still ends at its only bracket behind the first, what it is cut into
depends on nothing around it (`Closed.tokens_append`). -/

namespace GridText.Token

open Text (Begins Blank Ink Sheds Stops squeeze)

variable {s s' token token' after : Text} {found found' : List Text}

/-- A text that holds these tokens with blanks between them. -/
inductive Spaced : List Text → Text → Prop
  | nil {gap : Text} : Blank gap → Spaced [] gap
  | cons {gap token s : Text} {found : List Text} : Blank gap → Stops s → Spaced found s →
      Spaced (token :: found) (gap ++ (token ++ s))

theorem Spaced.first (hs : Stops s) (h : Spaced found s) : Spaced (token :: found) (token ++ s) :=
  .cons Text.blank_nil hs h

theorem Spaced.blank_append {gap : Text} (hgap : Blank gap) (h : Spaced found s) :
    Spaced found (gap ++ s) := by
  cases h with
  | nil hs => exact .nil (hgap.append hs)
  | cons hgap' hstops hs =>
    rw [← List.append_assoc]
    exact .cons (hgap.append hgap') hstops hs

/-! ### Calls without blanks -/

theorem Arguments.squeeze_eq (h : Arguments s) :
    ∃ a, a ≠ [] ∧ (∀ c ∈ a, isArgumentChar c = true) ∧ squeeze s = a ++ [')'] := by
  induction h with
  | @last a hne ha =>
    have hink : Ink (a ++ [')']) :=
      Ink.append (fun c hc => isInk_of_isArgumentChar (ha c hc)) (Text.ink_singleton rfl)
    exact ⟨a, hne, ha, Text.squeeze_of_ink hink⟩
  | @more a gap rest hne ha _ _ hgap _ ih =>
    obtain ⟨b, hb, hbs, hrest⟩ := ih
    have hink : Ink a := fun c hc => isInk_of_isArgumentChar (ha c hc)
    refine ⟨a ++ b, by simp [hne], List.forall_mem_append.mpr ⟨ha, hbs⟩, ?_⟩
    rw [Text.squeeze_append, Text.squeeze_append, Text.squeeze_of_ink hink,
      Text.squeeze_of_blank hgap, hrest, List.nil_append, List.append_assoc]

theorem IsCall.squeeze (h : IsCall token) : IsCall (squeeze token) := by
  obtain ⟨name, inner, rfl, hne, hname, hinner⟩ := h
  have hink : Ink name := fun c hc => isInk_of_isNameChar (hname c hc)
  obtain ⟨a, ha, has, hsqueeze⟩ := hinner.squeeze_eq
  refine ⟨name, a ++ [')'], ?_, hne, hname, .last ha has⟩
  rw [Text.squeeze_append, Text.squeeze_of_ink hink, ← hsqueeze, Text.squeeze, Text.squeeze,
    List.filter_cons_of_pos (by decide)]

/-! ### Closed texts -/

/-- A name, and then one pair of brackets that the text ends with. -/
def Closed (s : Text) : Prop :=
  ∃ name front, s = name ++ '(' :: (front ++ [')']) ∧ name ≠ [] ∧
    (∀ c ∈ name, isNameChar c = true) ∧ ∀ c ∈ front, c ≠ '(' ∧ c ≠ ')'

theorem ne_bracket_of_isArgumentChar {c : Char} (h : isArgumentChar c = true) :
    c ≠ '(' ∧ c ≠ ')' := by
  simp only [isArgumentChar, Bool.and_eq_true, decide_eq_true_eq] at h
  exact ⟨h.1.2, h.2⟩

theorem ne_bracket_of_isBlank {c : Char} (h : isBlank c = true) : c ≠ '(' ∧ c ≠ ')' := by
  constructor <;> rintro rfl <;> exact absurd h (by decide)

theorem Arguments.closed (h : Arguments s) :
    ∃ front, s = front ++ [')'] ∧ ∀ c ∈ front, c ≠ '(' ∧ c ≠ ')' := by
  induction h with
  | @last a _ ha => exact ⟨a, rfl, fun c hc => ne_bracket_of_isArgumentChar (ha c hc)⟩
  | @more a gap _ _ ha _ _ hgap _ ih =>
    obtain ⟨front, rfl, hfront⟩ := ih
    refine ⟨a ++ (gap ++ front), by simp, ?_⟩
    refine List.forall_mem_append.mpr ⟨fun c hc => ne_bracket_of_isArgumentChar (ha c hc),
      List.forall_mem_append.mpr ⟨fun c hc => ne_bracket_of_isBlank (hgap c hc), hfront⟩⟩

theorem IsCall.closed (h : IsCall token) : Closed token := by
  obtain ⟨name, inner, rfl, hne, hname, hinner⟩ := h
  obtain ⟨front, rfl, hfront⟩ := hinner.closed
  exact ⟨name, front, rfl, hne, hname, hfront⟩

theorem ink_open {name : Text} (hname : ∀ c ∈ name, isNameChar c = true) : Ink (name ++ ['(']) :=
  Ink.append (fun c hc => isInk_of_isNameChar (hname c hc)) (Text.ink_singleton rfl)

theorem Closed.sheds (h : Closed token) (hs : Sheds token token') :
    Closed token' ∧ ∃ name inner inner', Ink name ∧ token = name ++ '(' :: inner ∧
      token' = name ++ '(' :: inner' := by
  obtain ⟨name, front, rfl, hne, hname, hfront⟩ := h
  have hsplit : name ++ '(' :: (front ++ [')']) = name ++ ['('] ++ (front ++ [')']) := by simp
  rw [hsplit] at hs
  obtain ⟨b, rfl, hb⟩ := Sheds.of_ink_append (ink_open hname) hs
  obtain ⟨x, y, rfl, hx, hy⟩ := hb.of_append
  obtain rfl := hy.eq_of_ink (Text.ink_singleton rfl)
  exact ⟨⟨name, x, by simp, hne, hname, fun c hc => hfront c (hx.mem hc)⟩, name, _, x ++ [')'],
    fun c hc => isInk_of_isNameChar (hname c hc), rfl, by simp⟩

theorem Closed.unique {rest : Text} (h : Closed token) (h' : Closed token')
    (he : token ++ after = token' ++ rest) : token = token' := by
  obtain ⟨name, front, rfl, -, hname, hfront⟩ := h
  obtain ⟨name', front', rfl, -, hname', hfront'⟩ := h'
  simp only [List.append_assoc, List.cons_append, List.nil_append] at he
  obtain ⟨rfl, hbehind⟩ := append_cons_inj_of_stop hname hname' (by rfl) he
  have hp : ∀ front : Text, (∀ c ∈ front, c ≠ '(' ∧ c ≠ ')') → ∀ c ∈ front, (c != ')') = true :=
    fun front h c hc => by simpa using (h c hc).2
  obtain ⟨rfl, -⟩ := append_cons_inj_of_stop (hp front hfront) (hp front' hfront') (by rfl) hbehind
  rfl

theorem tokens_append_of_not_open (h : ∀ c ∈ s, c ≠ '(') (hs : Stops after) :
    tokens (s ++ after) = tokens s ++ tokens after := by
  induction s using tokens_induction with
  | blank s hblank =>
    rw [tokens_blank_append hblank, tokens_eq_nil_iff.mpr hblank, List.nil_append]
  | token gap token rest hgap hfront ih =>
    have htoken : ∀ c ∈ token, c ≠ '(' := fun c hc => h c (by simp [hc])
    have hfront' : Front token (rest ++ after) := by
      cases hfront with
      | call hcall => exact .call hcall
      | run hne hink hstops _ =>
        have hname : ∀ c ∈ token, isNameChar c = true := fun c hc => by
          simp [isNameChar, isInk, hink c hc, htoken c hc]
        have hstops' := hstops.append hs
        exact .run hne hink hstops' (call?_of_stops hname hstops')
    rw [List.append_assoc, List.append_assoc, hfront'.tokens_cons hgap, hfront.tokens_cons hgap,
      ih fun c hc => h c (by simp [hc]), List.cons_append]

/-- **What a closed text is cut into** depends on nothing that stands behind it. -/
theorem Closed.tokens_append (h : Closed token) (hs : Stops after) :
    tokens (token ++ after) = tokens token ++ tokens after := by
  by_cases hcall : IsCall token
  · have halone : tokens token = [token] := tokens_eq_cons_iff.mpr
      ⟨[], [], by simp, Text.blank_nil, .call hcall, tokens_eq_nil_iff.mpr Text.blank_nil⟩
    rw [halone]
    exact tokens_eq_cons_iff.mpr ⟨[], after, rfl, Text.blank_nil, .call hcall, rfl⟩
  -- otherwise no call begins here, and behind the name there is no other opening bracket
  have hnone (rest : Text) : call? (token ++ rest) = none := by
    rw [Option.eq_none_iff_forall_ne_some]
    rintro ⟨token', rest'⟩ hfound
    obtain ⟨hcall', he⟩ := call?_eq_some_iff.mp hfound
    exact hcall (h.unique hcall'.closed he ▸ hcall')
  obtain ⟨name, front, rfl, hne, hname, hfront⟩ := h
  obtain ⟨word, rest, hword, hink, hstops, hrest, hrestne⟩ : ∃ word rest,
      name ++ '(' :: (front ++ [')']) = word ++ rest ∧ Ink word ∧ Stops rest ∧
        (∀ c ∈ rest, c ≠ '(') ∧ word ≠ [] := by
    refine ⟨name ++ ['('] ++ (front ++ [')']).takeWhile isInk, (front ++ [')']).dropWhile isInk,
      ?_, (ink_open hname).append (Text.ink_takeWhile _), Text.stops_dropWhile_isInk _,
      fun c hc => ?_, by simp⟩
    · rw [List.append_assoc, List.append_assoc, List.takeWhile_append_dropWhile]
      rfl
    · rcases List.mem_append.mp ((List.dropWhile_sublist _).subset hc) with hc | hc
      · exact (hfront c hc).1
      · obtain rfl := List.mem_singleton.mp hc
        decide
  rw [hword] at hnone ⊢
  have hfirst : tokens (word ++ rest) = word :: tokens rest := by
    refine tokens_eq_cons_iff.mpr ⟨[], rest, rfl, Text.blank_nil, .run hrestne hink hstops ?_, rfl⟩
    simpa using hnone []
  have hall : tokens (word ++ rest ++ after) = word :: tokens (rest ++ after) := by
    refine tokens_eq_cons_iff.mpr ⟨[], rest ++ after, by simp, Text.blank_nil,
      .run hrestne hink (hstops.append hs) ?_, rfl⟩
    simpa using hnone after
  rw [hall, hfirst, tokens_append_of_not_open hrest hs, List.cons_append]

theorem Front.tokens_eq (h : Front token after) : tokens token = [token] := by
  refine tokens_eq_cons_iff.mpr
    ⟨[], [], by simp, Text.blank_nil, ?_, tokens_eq_nil_iff.mpr Text.blank_nil⟩
  cases h with
  | call hcall => exact .call hcall
  | run hne hink _ hnone =>
    refine .run hne hink Text.blank_nil.stops (Option.eq_none_iff_forall_ne_some.mpr ?_)
    rintro ⟨token', rest⟩ hfound
    obtain ⟨hcall, he⟩ := call?_eq_some_iff.mp hfound
    rw [List.append_nil] at he
    rw [he, List.append_assoc, call?_eq_some_iff.mpr ⟨hcall, rfl⟩] at hnone
    cases hnone

/-! ### No token begins a call that it did not begin before -/

theorem arguments?_eq_none_iff_of_bracket {word : Text} (hword : Ink word)
    (hbracket : ∃ c ∈ word, IsBracket c) (rest rest' : Text) :
    arguments? (word ++ rest) = none ↔ arguments? (word ++ rest') = none := by
  rcases argument_or_bracket hword with hargs | ⟨a, c, tail, rfl, ha, hc⟩
  · obtain ⟨c, hc, hb⟩ := hbracket
    have := hargs c hc
    rw [hb.isArgumentChar] at this
    cases this
  · rw [List.append_assoc, List.cons_append, arguments?_bracket ha hc, List.append_assoc,
      List.cons_append, arguments?_bracket ha hc]
    simp

theorem Closed.arguments?_eq_none_iff (h : Closed token) (hs : Sheds token token')
    (rest rest' : Text) :
    arguments? (token ++ rest) = none ↔ arguments? (token' ++ rest') = none := by
  obtain ⟨-, name, inner, inner', hname, rfl, rfl⟩ := h.sheds hs
  have hopen : Ink (name ++ ['(']) := hname.append (Text.ink_singleton rfl)
  have hsplit : ∀ inner rest : Text, name ++ '(' :: inner ++ rest =
      name ++ ['('] ++ (inner ++ rest) := fun inner rest => by simp
  rw [hsplit inner rest, hsplit inner' rest']
  exact arguments?_eq_none_iff_of_bracket hopen ⟨'(', by simp, Or.inl rfl⟩ _ _

/-- Behind an argument in front of a blank, the scan goes on with the next token. -/
theorem arguments?_gap {word gap : Text} (hargs : ∀ c ∈ word, isArgumentChar c = true)
    (hgap : Blank gap) (hs : Stops (gap ++ (token ++ after))) (hb : Begins token) :
    arguments? (word ++ (gap ++ (token ++ after))) = none ↔
      (word ≠ [] ∧ endsInComma word = true → arguments? (token ++ after) = none) := by
  have hne : gap ++ (token ++ after) ≠ [] := by
    obtain ⟨c, rest, rfl, -⟩ := hb
    simp
  rw [arguments?_stops hargs hs, hb.trimStart_append hgap]
  split_ifs with hmore
  · have hmore' : word ≠ [] ∧ endsInComma word = true := ⟨hmore.1, hmore.2.1⟩
    rw [Option.map_eq_none_iff]
    exact ⟨fun h _ => h, fun h => h hmore'⟩
  · have hmore' : ¬ (word ≠ [] ∧ endsInComma word = true) := fun h => hmore ⟨h.1, h.2, hne⟩
    exact ⟨fun _ h => absurd h hmore', fun _ => rfl⟩

theorem arguments?_blank {word gap : Text} (hargs : ∀ c ∈ word, isArgumentChar c = true)
    (hgap : Blank gap) : arguments? (word ++ gap) = none := by
  have hnil : arguments? [] = none := by
    rw [arguments?]
    simp [argument]
  rw [arguments?_stops hargs hgap.stops, Text.trimStart_eq_nil hgap, hnil]
  simp

/-- **The scan gets no further** when the tokens behind an argument are spaced in another way. -/
theorem arguments?_of_spaced {word : Text} (hword : Ink word) (hs : Stops s) (hs' : Stops s')
    (hfound : tokens s = found) (hsheds : List.Forall₂ Sheds found found')
    (hspaced : Spaced found' s') (h : arguments? (word ++ s) = none) :
    arguments? (word ++ s') = none := by
  -- by induction on the tokens behind: a run may be one more argument, a call ends the scan
  induction found generalizing word s s' found' with
  | nil =>
    obtain rfl := List.forall₂_nil_left_iff.mp hsheds
    cases hspaced with
    | nil hgap =>
      rcases argument_or_bracket hword with hargs | ⟨a, c, rest, rfl, -, hc⟩
      · exact arguments?_blank hargs hgap
      · exact (arguments?_eq_none_iff_of_bracket hword ⟨c, by simp, hc⟩ s s').mp h
  | cons token found ih =>
    rcases argument_or_bracket hword with hargs | ⟨a, c, rest, rfl, -, hc⟩
    · obtain ⟨gap, after, rfl, hgap, hfront, hafter⟩ := tokens_eq_cons_iff.mp hfound
      obtain ⟨token', found', ht, hrest, rfl⟩ := List.forall₂_cons_left_iff.mp hsheds
      have hnext := (arguments?_gap hargs hgap hs hfront.begins).mp h
      cases hspaced with
      | @cons gap' _ after' _ hgap' hstops' hspaced =>
        refine (arguments?_gap hargs hgap' hs' (ht.begins hfront.begins)).mpr fun hmore => ?_
        cases hfront with
        | call hcall =>
          exact (hcall.closed.arguments?_eq_none_iff ht after after').mp (hnext hmore)
        | run hne hink hstops _ =>
          obtain rfl := ht.eq_of_ink hink
          exact ih hink hstops hstops' hafter hrest hspaced (hnext hmore)
    · exact (arguments?_eq_none_iff_of_bracket hword ⟨c, by simp, hc⟩ s s').mp h

/-- **A run stays a token** when those behind it are spaced in another way. -/
theorem call?_of_spaced (hink : Ink token) (hstops : Stops after) (hstops' : Stops s')
    (hafter : tokens after = found) (hsheds : List.Forall₂ Sheds found found')
    (hspaced : Spaced found' s') (h : call? (token ++ after) = none) :
    call? (token ++ s') = none := by
  rcases name_or_open hink with hname | ⟨name, rest, rfl, hname⟩
  · exact call?_of_stops hname hstops'
  · have hrest : Ink rest := fun c hc => hink c (by simp [hc])
    rw [List.append_assoc, List.cons_append] at h ⊢
    cases name with
    | nil => exact call?_open _
    | cons c name =>
      rw [call?_name (List.cons_ne_nil c name) hname, Option.map_eq_none_iff] at h ⊢
      exact arguments?_of_spaced hrest hstops hstops' hafter hsheds hspaced h

/-- **The tokens of a row, spaced in another way and without some of their blanks**, are cut each by
itself. -/
theorem tokens_of_spaced (hfound : tokens s = found) (hsheds : List.Forall₂ Sheds found found')
    (hspaced : Spaced found' s') : tokens s' = found'.flatMap tokens := by
  induction found generalizing s s' found' with
  | nil =>
    obtain rfl := List.forall₂_nil_left_iff.mp hsheds
    cases hspaced with
    | nil hgap => exact tokens_eq_nil_iff.mpr hgap
  | cons token found ih =>
    obtain ⟨gap, after, rfl, -, hfront, hafter⟩ := tokens_eq_cons_iff.mp hfound
    obtain ⟨token', found', ht, hrest, rfl⟩ := List.forall₂_cons_left_iff.mp hsheds
    cases hspaced with
    | @cons gap' _ after' _ hgap' hstops' hspaced =>
      rw [tokens_blank_append hgap', List.flatMap_cons, ← ih hafter hrest hspaced]
      have halone := hfront.tokens_eq
      cases hfront with
      | call hcall => exact (hcall.closed.sheds ht).1.tokens_append hstops'
      | run hne hink hstops hnone =>
        obtain rfl := ht.eq_of_ink hink
        have hnone' := call?_of_spaced hink hstops hstops' hafter hrest hspaced hnone
        rw [halone]
        exact tokens_eq_cons_iff.mpr
          ⟨[], after', rfl, Text.blank_nil, .run hne hink hstops' hnone', rfl⟩

/-! ### Tokens that stand by themselves -/

/-- A token wherever it stands: a call, or a text without blanks and opening brackets. -/
inductive Solid (token : Text) : Prop
  | call : IsCall token → Solid token
  | plain : token ≠ [] → (∀ c ∈ token, isNameChar c = true) → Solid token

theorem Solid.front (h : Solid token) (hs : Stops after) : Front token after := by
  cases h with
  | call hcall => exact .call hcall
  | plain hne hname =>
    have hink : Ink token := fun c hc => isInk_of_isNameChar (hname c hc)
    exact .run hne hink hs (call?_of_stops hname hs)

/-- **Solid tokens with blanks between them** are the tokens of their text. -/
theorem tokens_of_solid (h : Spaced found s) (hsolid : ∀ token ∈ found, Solid token) :
    tokens s = found := by
  induction h with
  | nil hgap => exact tokens_eq_nil_iff.mpr hgap
  | cons hgap hstops _ ih =>
    obtain ⟨hfirst, hrest⟩ := List.forall_mem_cons.mp hsolid
    exact tokens_eq_cons_iff.mpr ⟨_, _, rfl, hgap, hfirst.front hstops, ih hrest⟩

end GridText.Token
