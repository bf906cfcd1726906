import GridText.Proofs.Row.Calls
import GridText.Proofs.Text.Pattern

/-! # Tokens: scanning and searching

The tokens of a row are found by a scan that never goes back. They are as well what a search for a
pattern finds, which tries a call first and a run without blanks where no call fits. A name may hold
commas and closing brackets, and a last argument commas, so a search may try many ways before one
fits; but a text begins with at most one call, and its parts are the only ones (`Call.unique`), so
the order in which they are tried does not matter.

* `Call`: a call with its name and its arguments; `isCall_iff`: these are the calls of the scan.
* `tokens_eq_findAll`: the tokens are what the search finds.
* `Scans`: the scan as a relation; `scans_iff`: it has one result, the tokens.
* `rows_are_scanned`: all of it for a row, with the text between the tokens and the refusal of blank
  rows. -/

namespace GridText.Token

open Text (Begins Blank Ink Stops)

variable {s token after : Text} {found : List Text}

/-! ### The parts of a call -/

/-- A character of an argument that another one follows. -/
def isLeadingChar (c : Char) : Bool := isArgumentChar c && c ≠ ','

/-- **An argument in front of others**, with a comma and a gap behind it. -/
@[ext] structure Leading where
  word : Text
  gap : Text
  word_ne_nil : word ≠ []
  word_chars : ∀ c ∈ word, isLeadingChar c = true
  gap_ne_nil : gap ≠ []
  gap_blank : Blank gap

/-- The argument as it is written, up to the next one. -/
def Leading.text (x : Leading) : Text := x.word ++ ',' :: x.gap

/-- What stands behind the opening bracket of a call. -/
def argumentsText (leading : List Leading) (last : Text) : Text :=
  leading.flatMap Leading.text ++ (last ++ [')'])

/-- **A call by its parts**: a name, and arguments of which the last one may hold commas. -/
@[ext] structure Call where
  name : Text
  leading : List Leading
  last : Text
  name_ne_nil : name ≠ []
  name_chars : ∀ c ∈ name, isNameChar c = true
  last_ne_nil : last ≠ []
  last_chars : ∀ c ∈ last, isArgumentChar c = true

/-- The call as it is written, up to its closing bracket. -/
def Call.text (k : Call) : Text := k.name ++ '(' :: argumentsText k.leading k.last

theorem isArgumentChar_of_isLeadingChar {c : Char} (h : isLeadingChar c = true) :
    isArgumentChar c = true := by
  rw [isLeadingChar, Bool.and_eq_true] at h
  exact h.1

theorem Leading.argument_chars (x : Leading) : ∀ c ∈ x.word ++ [','], isArgumentChar c = true := by
  refine List.forall_mem_append.mpr ⟨fun c hc => ?_, List.forall_mem_singleton.mpr rfl⟩
  exact isArgumentChar_of_isLeadingChar (x.word_chars c hc)

theorem Leading.begins (x : Leading) (rest : Text) : Begins (x.text ++ rest) := by
  obtain ⟨c, word, hword⟩ := List.exists_cons_of_ne_nil x.word_ne_nil
  have hc : isLeadingChar c = true := x.word_chars c (by simp [hword])
  refine ⟨c, word ++ ',' :: x.gap ++ rest, ?_,
    isInk_of_isArgumentChar (isArgumentChar_of_isLeadingChar hc)⟩
  rw [Leading.text, hword]
  rfl

theorem begins_argumentsText (leading : List Leading) {last : Text} (hne : last ≠ [])
    (hlast : ∀ c ∈ last, isArgumentChar c = true) : Begins (argumentsText leading last) := by
  cases leading with
  | nil =>
    obtain ⟨c, last, rfl⟩ := List.exists_cons_of_ne_nil hne
    exact ⟨c, last ++ [')'], rfl, isInk_of_isArgumentChar (hlast c (by simp))⟩
  | cons x leading =>
    rw [argumentsText, List.flatMap_cons, List.append_assoc]
    exact x.begins _

theorem exists_leading {a gap : Text} (ha : ∀ c ∈ a, isArgumentChar c = true)
    (hcomma : endsInComma a = true) (hgap : gap ≠ []) (hblank : Blank gap) :
    ∃ x : Leading, x.text = a ++ gap := by
  simp only [endsInComma, Bool.and_eq_true, decide_eq_true_eq] at hcomma
  obtain ⟨⟨hend, hne⟩, hnot⟩ := hcomma
  have hsplit : a.dropLast ++ [','] = a := List.dropLast_append_getLast? ',' hend
  have hword : ∀ c ∈ a.dropLast, isLeadingChar c = true := fun c hc => by
    have hc' : c ≠ ',' := fun he => hnot (he ▸ hc)
    simp [isLeadingChar, ha c (List.dropLast_subset a hc), hc']
  refine ⟨⟨a.dropLast, gap, hne, hword, hgap, hblank⟩, ?_⟩
  show a.dropLast ++ ',' :: gap = a ++ gap
  rw [List.append_cons, hsplit]

theorem Leading.arguments (x : Leading) {rest : Text} (h : Arguments rest) :
    Arguments (x.text ++ rest) := by
  have hnot : ',' ∉ x.word := fun hmem => by simpa [isLeadingChar] using x.word_chars ',' hmem
  have hcomma : endsInComma (x.word ++ [',']) = true := by
    simp [endsInComma, hnot, x.word_ne_nil]
  have hsplit : x.text ++ rest = x.word ++ [','] ++ (x.gap ++ rest) := by simp [Leading.text]
  rw [hsplit]
  exact .more (by simp) x.argument_chars hcomma x.gap_ne_nil x.gap_blank h

theorem arguments_iff : Arguments s ↔ ∃ leading last, last ≠ [] ∧
    (∀ c ∈ last, isArgumentChar c = true) ∧ argumentsText leading last = s := by
  constructor
  · intro h
    induction h with
    | @last a hne ha => exact ⟨[], a, hne, ha, rfl⟩
    | @more a gap rest hne ha hcomma hgap hblank _ ih =>
      obtain ⟨leading, last, hlast, hchars, rfl⟩ := ih
      obtain ⟨x, hx⟩ := exists_leading ha hcomma hgap hblank
      refine ⟨x :: leading, last, hlast, hchars, ?_⟩
      rw [argumentsText, List.flatMap_cons, hx, List.append_assoc, List.append_assoc]
      rfl
  · rintro ⟨leading, last, hlast, hchars, rfl⟩
    induction leading with
    | nil => exact .last hlast hchars
    | cons x leading ih =>
      rw [argumentsText, List.flatMap_cons, List.append_assoc]
      exact x.arguments ih

theorem isCall_iff : IsCall token ↔ ∃ k : Call, k.text = token := by
  constructor
  · rintro ⟨name, inner, rfl, hne, hname, hinner⟩
    obtain ⟨leading, last, hlast, hchars, rfl⟩ := arguments_iff.mp hinner
    exact ⟨⟨name, leading, last, hne, hname, hlast, hchars⟩, rfl⟩
  · rintro ⟨k, rfl⟩
    exact ⟨k.name, _, rfl, k.name_ne_nil, k.name_chars,
      arguments_iff.mpr ⟨k.leading, k.last, k.last_ne_nil, k.last_chars, rfl⟩⟩

theorem Call.isCall (k : Call) : IsCall k.text := isCall_iff.mpr ⟨k, rfl⟩

theorem call?_eq_none_iff : call? s = none ↔ ∀ k : Call, ¬ k.text <+: s := by
  rw [Option.eq_none_iff_forall_ne_some]
  constructor
  · rintro h k ⟨after, rfl⟩
    exact h (k.text, after) (call?_eq_some_iff.mpr ⟨k.isCall, rfl⟩)
  · rintro h ⟨token, after⟩ hfound
    obtain ⟨hcall, rfl⟩ := call?_eq_some_iff.mp hfound
    obtain ⟨k, rfl⟩ := isCall_iff.mp hcall
    exact h k (List.prefix_append _ _)

/-! ### One call at most -/

theorem Leading.unique {x y : Leading} {rest rest' : Text} (hr : Begins rest) (hr' : Begins rest')
    (h : x.text ++ rest = y.text ++ rest') : x = y ∧ rest = rest' := by
  simp only [Leading.text, List.append_assoc, List.cons_append] at h
  obtain ⟨hword, hbehind⟩ := append_cons_inj_of_stop x.word_chars y.word_chars (by rfl) h
  have hstop {rest : Text} (hb : Begins rest) : ∀ c ∈ rest.head?, isBlank c = false := by
    obtain ⟨c, rest, rfl, hc⟩ := hb
    rintro d ⟨⟩
    exact hc
  obtain ⟨hgap, hrest⟩ := append_inj_of_stop x.gap_blank y.gap_blank (hstop hr) (hstop hr') hbehind
  exact ⟨Leading.ext hword hgap, hrest⟩

/-- An argument in front of others is not the last one: a blank ends it, and no bracket. -/
theorem Leading.ne_last (x : Leading) {last rest rest' : Text}
    (hlast : ∀ c ∈ last, isArgumentChar c = true) :
    x.text ++ rest ≠ last ++ ')' :: rest' := by
  intro h
  obtain ⟨b, gap, hgap⟩ := List.exists_cons_of_ne_nil x.gap_ne_nil
  have hb : isBlank b = true := x.gap_blank b (by simp [hgap])
  have hsplit : x.text ++ rest = x.word ++ [','] ++ b :: (gap ++ rest) := by
    simp [Leading.text, hgap]
  have hstop : ∀ c ∈ (b :: (gap ++ rest)).head?, isArgumentChar c = false := by
    rintro c ⟨⟩
    exact isArgumentChar_of_isBlank hb
  have hclose : ∀ c ∈ (')' :: rest').head?, isArgumentChar c = false := by
    rintro c ⟨⟩
    rfl
  rw [hsplit] at h
  obtain ⟨-, hbehind⟩ := append_inj_of_stop x.argument_chars hlast hstop hclose h
  rw [(List.cons.inj hbehind).1] at hb
  exact absurd hb (by decide)

theorem argumentsText_inj {leading leading' : List Leading} {last last' rest rest' : Text}
    (hne : last ≠ []) (hlast : ∀ c ∈ last, isArgumentChar c = true)
    (hne' : last' ≠ []) (hlast' : ∀ c ∈ last', isArgumentChar c = true)
    (h : argumentsText leading last ++ rest = argumentsText leading' last' ++ rest') :
    leading = leading' ∧ last = last' ∧ rest = rest' := by
  have hcons (x : Leading) (leading : List Leading) (last rest : Text) :
      argumentsText (x :: leading) last ++ rest =
        x.text ++ (argumentsText leading last ++ rest) := by simp [argumentsText]
  have hnil (last rest : Text) : argumentsText [] last ++ rest = last ++ ')' :: rest := by
    simp [argumentsText]
  have hbegins (leading : List Leading) {last : Text} (rest : Text) (hne : last ≠ [])
      (hlast : ∀ c ∈ last, isArgumentChar c = true) :
      Begins (argumentsText leading last ++ rest) := by
    obtain ⟨c, word, he, hc⟩ := begins_argumentsText leading hne hlast
    exact ⟨c, word ++ rest, by rw [he]; rfl, hc⟩
  induction leading generalizing leading' with
  | nil =>
    cases leading' with
    | nil =>
      rw [hnil, hnil] at h
      exact ⟨rfl, append_cons_inj_of_stop hlast hlast' (by rfl) h⟩
    | cons y leading' =>
      rw [hnil, hcons] at h
      exact absurd h.symm (y.ne_last hlast)
  | cons x leading ih =>
    cases leading' with
    | nil =>
      rw [hnil, hcons] at h
      exact absurd h (x.ne_last hlast')
    | cons y leading' =>
      rw [hcons, hcons] at h
      obtain ⟨rfl, hrest⟩ :=
        Leading.unique (hbegins leading rest hne hlast) (hbegins leading' rest' hne' hlast') h
      obtain ⟨rfl, hbehind⟩ := ih hrest
      exact ⟨rfl, hbehind⟩

/-- **A text begins with at most one call**, and the parts of a call are the only ones. -/
theorem Call.unique {k k' : Call} (h : k.text <+: s) (h' : k'.text <+: s) : k = k' := by
  obtain ⟨rest, rfl⟩ := h
  obtain ⟨rest', he⟩ := h'
  simp only [Call.text, List.append_assoc, List.cons_append] at he
  obtain ⟨hname, hbehind⟩ := append_cons_inj_of_stop k'.name_chars k.name_chars (by rfl) he
  obtain ⟨hleading, hlast, -⟩ := argumentsText_inj k'.last_ne_nil k'.last_chars k.last_ne_nil
    k.last_chars hbehind
  exact (Call.ext hname hleading hlast).symm

/-! ### The search for tokens -/

/-- An argument, a comma and a gap. -/
def leadingPattern : Pattern := .seq (.run isLeadingChar) (.seq (.one (· = ',')) (.run isBlank))

/-- A name, an opening bracket, arguments in front of others, the last one, a closing bracket. -/
def callPattern : Pattern :=
  .seq (.run isNameChar) (.seq (.one (· = '(')) (.seq (.many leadingPattern)
    (.seq (.run isArgumentChar) (.one (· = ')')))))

/-- **The pattern of a token**: a call, or else a run without blanks. -/
def tokenPattern : Pattern := .either callPattern (.run isInk)

theorem spells_leadingPattern_iff :
    leadingPattern.Spells s ↔ ∃ x : Leading, x.text = s := by
  constructor
  · rintro ⟨word, behind, rfl, hword, comma, gap, rfl, hcomma, hgap⟩
    obtain ⟨hne, hchars⟩ := Pattern.spells_run_iff.mp hword
    obtain ⟨hgapne, hblank⟩ := Pattern.spells_run_iff.mp hgap
    obtain rfl := Pattern.spells_one_iff.mp hcomma
    exact ⟨⟨word, gap, hne, hchars, hgapne, hblank⟩, rfl⟩
  · rintro ⟨x, rfl⟩
    exact ⟨x.word, ',' :: x.gap, rfl, Pattern.spells_run_iff.mpr ⟨x.word_ne_nil, x.word_chars⟩,
      [','], x.gap, rfl, Pattern.spells_one_iff.mpr rfl,
      Pattern.spells_run_iff.mpr ⟨x.gap_ne_nil, x.gap_blank⟩⟩

theorem spells_many_leadingPattern_iff :
    (Pattern.many leadingPattern).Spells s ↔ ∃ leading, List.flatMap Leading.text leading = s := by
  constructor
  · rintro ⟨pieces, rfl, hpieces⟩
    induction pieces with
    | nil => exact ⟨[], rfl⟩
    | cons piece pieces ih =>
      obtain ⟨⟨-, hpiece⟩, hrest⟩ := List.forall_mem_cons.mp hpieces
      obtain ⟨x, rfl⟩ := spells_leadingPattern_iff.mp hpiece
      obtain ⟨leading, hleading⟩ := ih hrest
      refine ⟨x :: leading, ?_⟩
      rw [List.flatMap_cons, hleading, List.flatten_cons]
  · rintro ⟨leading, rfl⟩
    refine ⟨leading.map Leading.text, List.flatMap_def, fun piece hpiece => ?_⟩
    obtain ⟨x, -, rfl⟩ := List.mem_map.mp hpiece
    exact ⟨by simp [Leading.text], spells_leadingPattern_iff.mpr ⟨x, rfl⟩⟩

theorem spells_callPattern_iff : callPattern.Spells s ↔ ∃ k : Call, k.text = s := by
  constructor
  · rintro ⟨name, _, rfl, hname, bracket, _, rfl, hopen, _, _, rfl, hleading, last, close, rfl,
      hlast, hclose⟩
    obtain ⟨hne, hchars⟩ := Pattern.spells_run_iff.mp hname
    obtain rfl := Pattern.spells_one_iff.mp hopen
    obtain ⟨leading, rfl⟩ := spells_many_leadingPattern_iff.mp hleading
    obtain ⟨hlastne, hlastchars⟩ := Pattern.spells_run_iff.mp hlast
    obtain rfl := Pattern.spells_one_iff.mp hclose
    exact ⟨⟨name, leading, last, hne, hchars, hlastne, hlastchars⟩, rfl⟩
  · rintro ⟨k, rfl⟩
    exact ⟨k.name, _, rfl, Pattern.spells_run_iff.mpr ⟨k.name_ne_nil, k.name_chars⟩,
      ['('], _, rfl, Pattern.spells_one_iff.mpr rfl,
      _, _, rfl, spells_many_leadingPattern_iff.mpr ⟨k.leading, rfl⟩,
      k.last, [')'], rfl, Pattern.spells_run_iff.mpr ⟨k.last_ne_nil, k.last_chars⟩,
      Pattern.spells_one_iff.mpr rfl⟩

theorem splits_tokenPattern_of_blank {c : Char} (hc : isBlank c = true) :
    tokenPattern.splits (c :: s) = [] := by
  refine Pattern.splits_eq_nil_iff.mpr fun token after he hspells => ?_
  have hbegins : Begins token := by
    rcases hspells with h | h
    · obtain ⟨k, rfl⟩ := spells_callPattern_iff.mp h
      exact k.isCall.begins
    · obtain ⟨hne, hchars⟩ := Pattern.spells_run_iff.mp h
      exact (Text.ink_of_all hchars).begins hne
  obtain ⟨d, rest, rfl, hd⟩ := hbegins
  rw [(List.cons.inj he).1, hd] at hc
  cases hc

/-- **Where a token begins, the search finds what the scan cuts.** -/
theorem head?_splits_tokenPattern {c : Char} (hc : isBlank c = false) (s : Text) :
    (tokenPattern.splits (c :: s)).head? = some (cut (c :: s)) := by
  rw [tokenPattern, Pattern.splits, List.head?_append]
  cases hcall : call? (c :: s) with
  | some split =>
    obtain ⟨token, after⟩ := split
    obtain ⟨htoken, he⟩ := call?_eq_some_iff.mp hcall
    obtain ⟨k, rfl⟩ := isCall_iff.mp htoken
    have hfirst : (callPattern.splits (k.text ++ after)).head? = some (k.text, after) := by
      refine Pattern.head?_splits_of_unique (spells_callPattern_iff.mpr ⟨k, rfl⟩) ?_
      intro token' after' hspells' he'
      obtain ⟨k', rfl⟩ := spells_callPattern_iff.mp hspells'
      rw [Call.unique (List.prefix_append _ _) ⟨after', he'.symm⟩]
    rw [cut, hcall, he, hfirst]
    rfl
  | none =>
    have hnone : callPattern.splits (c :: s) = [] := by
      refine Pattern.splits_eq_nil_iff.mpr fun token after he hspells => ?_
      obtain ⟨k, rfl⟩ := spells_callPattern_iff.mp hspells
      exact call?_eq_none_iff.mp hcall k ⟨after, he.symm⟩
    rw [hnone, Pattern.head?_splits_run (isInk_eq_true_iff.mpr hc), cut, hcall]
    rfl

/-- **The tokens of a text are what a search for tokens finds.** -/
theorem tokens_eq_findAll (s : Text) : tokens s = tokenPattern.findAll s := by
  induction hn : s.length using Nat.strong_induction_on generalizing s with
  | _ n ih =>
    subst hn
    cases s with
    | nil => rw [Pattern.findAll_nil, tokens_eq_nil_iff.mpr Text.blank_nil]
    | cons c s =>
      cases hc : isBlank c with
      | true =>
        have hblank : Blank [c] := List.forall_mem_singleton.mpr hc
        rw [Pattern.findAll_cons_of_nil (splits_tokenPattern_of_blank hc), ← List.singleton_append,
          tokens_blank_append hblank]
        exact ih s.length (Nat.lt_succ_self _) s rfl
      | false =>
        have htrim : Text.trimStart (c :: s) = c :: s := Text.trimStart_of_ink hc
        have hfound : (tokenPattern.splits (c :: s)).head? =
            some ((cut (c :: s)).1, (cut (c :: s)).2) := head?_splits_tokenPattern hc s
        rw [Pattern.findAll_of_head? hfound (cut_ne_nil hc s), tokens_of_trimStart_eq_cons htrim,
          ih _ (length_cut_lt htrim) _ rfl]

/-! ### The scan as a relation -/

/-- **A scan from left to right.** Blanks are passed over; where a call begins it is the next token,
and elsewhere the longest run without blanks is; the scan goes on right behind the token. -/
inductive Scans : Text → List Text → Prop
  | done {gap : Text} : Blank gap → Scans gap []
  | call {gap after : Text} {found : List Text} (k : Call) : Blank gap → Scans after found →
      Scans (gap ++ (k.text ++ after)) (k.text :: found)
  | run {gap word after : Text} {found : List Text} : Blank gap → word ≠ [] → Ink word →
      Stops after → (∀ k : Call, ¬ k.text <+: word ++ after) → Scans after found →
      Scans (gap ++ (word ++ after)) (word :: found)

/-- **The scan has one result**, the tokens. -/
theorem scans_iff : Scans s found ↔ tokens s = found := by
  constructor
  · intro h
    induction h with
    | done hgap => exact tokens_eq_nil_iff.mpr hgap
    | call k hgap _ ih => exact tokens_eq_cons_iff.mpr ⟨_, _, rfl, hgap, .call k.isCall, ih⟩
    | run hgap hne hink hstops hnone _ ih =>
      exact tokens_eq_cons_iff.mpr
        ⟨_, _, rfl, hgap, .run hne hink hstops (call?_eq_none_iff.mpr hnone), ih⟩
  · intro h
    induction found generalizing s with
    | nil => exact .done (tokens_eq_nil_iff.mp h)
    | cons token found ih =>
      obtain ⟨gap, after, rfl, hgap, hfront, hafter⟩ := tokens_eq_cons_iff.mp h
      cases hfront with
      | call hcall =>
        obtain ⟨k, rfl⟩ := isCall_iff.mp hcall
        exact .call k hgap (ih hafter)
      | run hne hink hstops hnone =>
        exact .run hgap hne hink hstops (call?_eq_none_iff.mp hnone) (ih hafter)

theorem exists_gaps (s : Text) : ∃ first gaps, Blank first ∧ (∀ gap ∈ gaps, Blank gap) ∧
    gaps.length = (tokens s).length ∧
    s = first ++ (List.zipWith (· ++ ·) (tokens s) gaps).flatten := by
  induction s using tokens_induction with
  | blank s hs =>
    rw [tokens_eq_nil_iff.mpr hs]
    refine ⟨s, [], hs, fun _ h => absurd h List.not_mem_nil, rfl, ?_⟩
    exact (List.append_nil s).symm
  | token before token after hbefore hfront ih =>
    obtain ⟨first, gaps, hfirst, hgaps, hlength, he⟩ := ih
    rw [hfront.tokens_cons hbefore]
    refine ⟨before, first :: gaps, hbefore, List.forall_mem_cons.mpr ⟨hfirst, hgaps⟩, ?_, ?_⟩
    · rw [List.length_cons, List.length_cons, hlength]
    · rw [List.zipWith_cons_cons, List.flatten_cons, List.append_assoc, ← he]

theorem scan_eq (row : Text) : scan row =
    if Blank row then .error (.malformedRow row) else .ok (tokens row) := by
  unfold scan
  cases hfound : tokens row with
  | nil =>
    have hblank : Blank row := tokens_eq_nil_iff.mp hfound
    rw [if_pos hblank]
  | cons token found =>
    have hblank : ¬ Blank row := fun h => by
      rw [tokens_eq_nil_iff.mpr h] at hfound
      cases hfound
    rw [if_neg hblank]

/-- **Rows are scanned.** A row that holds more than blanks is cut into what a search for tokens
finds in it, and any other row is refused. A scan that never goes back has the same result and no
other, since a text begins with at most one call. The row is its tokens with blanks around them, and
no token begins or ends with a blank. -/
theorem rows_are_scanned (row : Text) :
    (scan row =
      if Blank row then .error (.malformedRow row) else .ok (tokenPattern.findAll row)) ∧
    (∀ found, Scans row found ↔ tokenPattern.findAll row = found) ∧
    (∀ (s : Text) (k k' : Call), k.text <+: s → k'.text <+: s → k = k') ∧
    (∃ first gaps, Blank first ∧ (∀ gap ∈ gaps, Blank gap) ∧
      gaps.length = (tokenPattern.findAll row).length ∧
      row = first ++ (List.zipWith (· ++ ·) (tokenPattern.findAll row) gaps).flatten) ∧
    ∀ token ∈ tokenPattern.findAll row,
      Begins token ∧ ∃ front c, token = front ++ [c] ∧ isBlank c = false := by
  rw [← tokens_eq_findAll]
  refine ⟨scan_eq row, fun _ => scans_iff, fun _ _ _ => Call.unique, exists_gaps row,
    fun token htoken => ?_⟩
  obtain ⟨⟨after, hfront⟩, -⟩ := front_of_mem_tokens htoken
  exact ⟨hfront.begins, hfront.exists_concat_ink⟩

/-- Blanks of three kinds, and two calls with nothing between them and what follows. The last one is
no call, for its brackets are nested. -/
example : scan "\t1fr  minmax(1px, 2fr)f(a)B\u3000g(h(x, y))".toList = .ok ["1fr".toList,
    "minmax(1px, 2fr)".toList, "f(a)".toList, "B".toList, "g(h(x,".toList, "y))".toList] ∧
    scan " \t\u00a0".toList = .error (.malformedRow " \t\u00a0".toList) := by
  decide +kernel

end GridText.Token
