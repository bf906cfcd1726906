import GridText.Layout.Reading
import GridText.Proofs.Row.Respacing
import GridText.Proofs.Row.Scanning
import GridText.Proofs.Text.Runs

/-! # Tokens: where they end

A run ends at a blank or at the end of the row. A call ends at its bracket, whatever stands behind
it: `f(a),B` is cut into `f(a)` and `,B`. So blanks are what sets the tokens of a row apart only if
they follow all calls that stand where a token may begin (`CallsStop`).

* `abutting_tokens`: a token ends at a blank, at the end of the row or with a call.
* `spaced_tokens_iff_runs`: all tokens end at blanks exactly when no run of the row is cut.
* `spaced_tokens_iff_callsStop`: this is so exactly when the calls of the row stop.
* `tokens_eq_singleton_iff`: which entries without blanks are one token. -/

namespace GridText

open Text (Begins Blank Ink Stops runs)

variable {s token after gap : Text}

/-! ### Runs that are cut -/

namespace Text

variable {c : Char}

theorem exists_last_run (hc : isBlank c = false) : ∃ front word, s ++ [c] = front ++ word ∧
    word ≠ [] ∧ Ink word ∧ ∀ t, runs (front ++ t) = runs front ++ runs t := by
  rcases all_or_exists_first isInk (s ++ [c]).reverse with hall | ⟨word, b, rest, he, hword, hb⟩
  · have hink : Ink (s ++ [c]) := ink_of_all fun d hd => hall d (List.mem_reverse.mpr hd)
    exact ⟨[], s ++ [c], rfl, by simp, hink, fun t => rfl⟩
  · have hb' : isBlank b = true := by simpa [isInk] using hb
    have hsplit : s ++ [c] = rest.reverse ++ [b] ++ word.reverse := by
      rw [← List.reverse_inj, he]
      simp
    have hne : word ≠ [] := by
      rintro rfl
      obtain ⟨rfl, -⟩ := List.cons.inj (List.reverse_concat.symm.trans he)
      rw [hc] at hb'
      cases hb'
    refine ⟨rest.reverse ++ [b], word.reverse, hsplit, by simpa using hne,
      ink_of_all fun d hd => hword d (List.mem_reverse.mp hd), fun t => ?_⟩
    rw [List.append_assoc, List.singleton_append, runs_append_cons hb', runs_append_cons hb',
      runs_of_blank blank_nil, List.append_nil]

/-- **A run that is cut** is not among the runs of the pieces. -/
theorem runs_append_ne (hc : isBlank c = false) (ht : Begins after) (words : List Text) :
    runs (s ++ [c] ++ after) ≠ runs (s ++ [c]) ++ words := by
  obtain ⟨front, word, he, hne, hink, hruns⟩ := exists_last_run (s := s) hc
  obtain ⟨next, rest, rfl, hnext, hinknext, hstops, -⟩ := exists_run_of_begins ht
  have hwhole : runs (s ++ [c] ++ (next ++ rest)) = runs front ++ (word ++ next) :: runs rest := by
    rw [he, List.append_assoc, hruns, ← List.append_assoc, runs_append_of_stops hstops,
      runs_of_ink (hink.append hinknext) (by simp [hne])]
    rfl
  have hfirst : runs (s ++ [c]) ++ words = runs front ++ word :: words := by
    rw [he, hruns, runs_of_ink hink hne, List.append_assoc]
    rfl
  rw [hwhole, hfirst]
  intro h
  have hword := (List.cons.inj (List.append_cancel_left h)).1
  exact hnext (List.append_right_eq_self.mp hword)

end Text

namespace Token

variable {found : List Text}

/-! ### What stands behind a token -/

/-- A text that holds these tokens with blanks around them, but for calls: what stands behind a call
may be the next token. -/
inductive Abutting : List Text → Text → Prop
  | nil {gap : Text} : Blank gap → Abutting [] gap
  | cons {gap token s : Text} {found : List Text} : Blank gap → IsCall token ∨ Stops s →
      Abutting found s → Abutting (token :: found) (gap ++ (token ++ s))

theorem abutting_tokens (s : Text) : Abutting (tokens s) s := by
  induction s using tokens_induction with
  | blank s hs =>
    rw [tokens_eq_nil_iff.mpr hs]
    exact .nil hs
  | token gap token after hgap hfront ih =>
    rw [hfront.tokens_cons hgap]
    refine .cons hgap ?_ ih
    cases hfront with
    | call hcall => exact Or.inl hcall
    | run _ _ hstops _ => exact Or.inr hstops

theorem spaced_tokens_of_blank (hs : Blank s) : Spaced (tokens s) s := by
  rw [tokens_eq_nil_iff.mpr hs]
  exact .nil hs

theorem Front.spaced_iff (h : Front token after) (hgap : Blank gap) :
    Spaced (tokens (gap ++ (token ++ after))) (gap ++ (token ++ after)) ↔
      Stops after ∧ Spaced (tokens after) after := by
  rw [h.tokens_cons hgap]
  constructor
  · intro hspaced
    generalize hs : gap ++ (token ++ after) = s at hspaced
    cases hspaced with
    | @cons gap' _ s' _ hgap' hstops hrest =>
      have hink (after : Text) : ∀ c ∈ (token ++ after).head?, isBlank c = false := by
        obtain ⟨c, rest, rfl, hc⟩ := h.begins
        rintro d ⟨⟩
        exact hc
      obtain ⟨-, hbehind⟩ := append_inj_of_stop hgap hgap' (hink after) (hink s') hs
      obtain rfl := List.append_cancel_left hbehind
      exact ⟨hstops, hrest⟩
  · rintro ⟨hstops, hspaced⟩
    exact .cons hgap hstops hspaced

/-- **All tokens end at blanks** exactly when the runs of the text are those of its tokens, so that
each run lies in one token. -/
theorem spaced_tokens_iff_runs : Spaced (tokens s) s ↔ runs s = (tokens s).flatMap runs := by
  induction s using tokens_induction with
  | blank s hs =>
    rw [iff_true_left (spaced_tokens_of_blank hs), tokens_eq_nil_iff.mpr hs]
    exact Text.runs_of_blank hs
  | token gap token after hgap hfront ih =>
    rw [hfront.spaced_iff hgap, hfront.tokens_cons hgap, List.flatMap_cons,
      Text.runs_blank_append hgap, ih]
    by_cases hstops : Stops after
    · rw [Text.runs_append_of_stops hstops, List.append_right_inj]
      exact and_iff_right hstops
    · have hafter : Begins after := by
        cases after with
        | nil => exact absurd Text.blank_nil.stops hstops
        | cons c rest => exact ⟨c, rest, rfl, by simpa [Stops] using hstops⟩
      obtain ⟨front, c, rfl, hc⟩ := hfront.exists_concat_ink
      exact iff_of_false (fun h => hstops h.1) (Text.runs_append_ne hc hafter _)

/-! ### Calls that stop -/

/-- **A blank follows each call** that stands at the front of the text or behind a blank. -/
def CallsStop (s : Text) : Prop :=
  ∀ (front after : Text) (k : Call), s = front ++ (k.text ++ after) →
    (∀ b ∈ front.getLast?, isBlank b = true) → Stops after

theorem callsStop_of_blank (hs : Blank s) : CallsStop s := by
  rintro front after k rfl -
  have hcall : Blank k.text := fun c hc => hs c (by simp [hc])
  exact absurd hcall k.isCall.begins.not_blank

/-- No call begins behind a blank of a call: its name would reach over the end of that one. -/
theorem IsCall.no_call_behind_blank {front rest : Text} (h : IsCall (front ++ rest))
    (hfront : ¬ Ink front) (hs : Stops after) (k : Call) : ¬ k.text <+: rest ++ after := by
  rintro ⟨behind, he⟩
  obtain ⟨name, inner, hclosed, -, hname, hinner⟩ := h.closed
  have hopen : Ink (name ++ ['(']) := ink_open hname
  rw [List.append_cons] at hclosed
  -- the only opening bracket stands in front of the blank
  have hrest : '(' ∉ rest := by
    rcases List.append_eq_append_iff.mp hclosed with ⟨w, hw, -⟩ | ⟨w, -, hw⟩
    · exact absurd (fun c hc => hopen c (by rw [hw]; exact List.mem_append_left _ hc)) hfront
    · intro hmem
      have : '(' ∈ inner ++ [')'] := by
        rw [hw]
        exact List.mem_append_right _ hmem
      rcases List.mem_append.mp this with hmem | hmem
      · exact (hinner '(' hmem).1 rfl
      · exact absurd (List.mem_singleton.mp hmem) (by decide)
  have hk : Ink (k.name ++ ['(']) := ink_open k.name_chars
  rw [Call.text, List.append_cons, List.append_assoc] at he
  rcases List.append_eq_append_iff.mp he with ⟨w, hw, -⟩ | ⟨w, hw, hafter⟩
  · exact hrest (by simp [hw])
  · cases w with
    | nil =>
      rw [List.append_nil] at hw
      exact hrest (by simp [← hw])
    | cons c w =>
      have hc : isBlank c = false := hk c (by simp [hw])
      rw [hs c (by simp [hafter])] at hc
      cases hc

theorem Front.stops_behind_call (h : Front token after) (hs : Stops after) {k : Call} {rest : Text}
    (he : token ++ after = k.text ++ rest) : Stops rest := by
  cases h with
  | call hcall =>
    obtain ⟨k', rfl⟩ := isCall_iff.mp hcall
    obtain rfl := Call.unique ⟨after, he⟩ (List.prefix_append k.text rest)
    rwa [← List.append_cancel_left he]
  | run _ _ _ hnone => exact absurd ⟨rest, he.symm⟩ (call?_eq_none_iff.mp hnone k)

theorem Front.callsStop (h : Front token after) (hgap : Blank gap) (hstops : Stops after)
    (hcalls : CallsStop after) : CallsStop (gap ++ (token ++ after)) := by
  intro front behind k he hfront
  rcases List.append_eq_append_iff.mp he with ⟨w, rfl, hw⟩ | ⟨w, rfl, hw⟩
  · rcases List.append_eq_append_iff.mp hw with ⟨v, rfl, hv⟩ | ⟨v, rfl, hv⟩
    · -- the call begins behind the token
      refine hcalls v behind k hv fun b hb => hfront b ?_
      cases v with
      | nil => cases hb
      | cons c v =>
        rwa [← List.append_assoc, List.getLast?_append_of_ne_nil _ (List.cons_ne_nil c v)]
    · cases w with
      | nil => exact h.stops_behind_call hstops hw
      | cons c w =>
        -- it begins behind a blank in the token, which is a call itself then
        have hlast : isBlank ((c :: w).getLast (List.cons_ne_nil c w)) = true := by
          refine hfront _ ?_
          rw [List.getLast?_append_of_ne_nil _ (List.cons_ne_nil c w),
            List.getLast?_eq_getLast_of_ne_nil]
          rfl
        have hblank : ¬ Ink (c :: w) := fun hink => by
          rw [hink _ (List.getLast_mem _)] at hlast
          cases hlast
        cases h with
        | call hcall => exact absurd ⟨behind, hv⟩ (hcall.no_call_behind_blank hblank hstops k)
        | run _ hink _ _ =>
          exact absurd (fun d hd => hink d (List.mem_append_left v hd)) hblank
  · -- it does not begin in the gap, where there are blanks only
    cases w with
    | nil => exact h.stops_behind_call hstops hw.symm
    | cons b w =>
      obtain ⟨c, rest, hk, hc⟩ := k.isCall.begins
      rw [hk] at hw
      rw [(List.cons.inj hw).1, hgap b (by simp)] at hc
      cases hc

theorem Front.callsStop_iff (h : Front token after) (hgap : Blank gap) :
    CallsStop (gap ++ (token ++ after)) ↔ Stops after ∧ CallsStop after := by
  constructor
  · intro hcalls
    have hstops : Stops after := by
      cases h with
      | call hcall =>
        obtain ⟨k, rfl⟩ := isCall_iff.mp hcall
        exact hcalls gap after k rfl fun b hb => hgap b (List.mem_of_mem_getLast? hb)
      | run _ _ hstops _ => exact hstops
    refine ⟨hstops, ?_⟩
    rintro front behind k rfl hfront
    cases front with
    | nil =>
      -- a call is no blank
      obtain ⟨c, rest, hk, hc⟩ := k.isCall.begins
      rw [hstops c (by simp [hk])] at hc
      cases hc
    | cons b front =>
      refine hcalls (gap ++ (token ++ b :: front)) behind k (by simp) fun d hd => hfront d ?_
      rwa [← List.append_assoc, List.getLast?_append_of_ne_nil _ (List.cons_ne_nil b front)] at hd
  · rintro ⟨hstops, hcalls⟩
    exact h.callsStop hgap hstops hcalls

theorem spaced_tokens_iff_callsStop : Spaced (tokens s) s ↔ CallsStop s := by
  induction s using tokens_induction with
  | blank s hs => exact iff_of_true (spaced_tokens_of_blank hs) (callsStop_of_blank hs)
  | token gap token after hgap hfront ih =>
    rw [hfront.spaced_iff hgap, hfront.callsStop_iff hgap, ih]

theorem tokens_eq_singleton_iff (hne : s ≠ []) (hink : Ink s) :
    tokens s = [s] ↔ ∀ (k : Call) (after : Text), s = k.text ++ after → after = [] := by
  constructor
  · rintro h k after rfl
    obtain ⟨gap, rest, he, -, hfront, -⟩ := tokens_eq_cons_iff.mp h
    have hrest : rest = [] := by
      have hlength := congrArg List.length he
      simp only [List.length_append] at hlength
      exact List.length_eq_zero_iff.mp (by omega)
    subst hrest
    have hstops : Stops after := hfront.stops_behind_call Text.blank_nil.stops (List.append_nil _)
    cases after with
    | nil => rfl
    | cons c after =>
      have hc : isBlank c = false := hink c (by simp)
      rw [hstops c rfl] at hc
      cases hc
  · intro h
    have hfront : Front s [] := by
      cases hcall : call? s with
      | none => exact .run hne hink Text.blank_nil.stops (by rwa [List.append_nil])
      | some split =>
        obtain ⟨hfirst, he⟩ := call?_eq_some_iff.mp hcall
        obtain ⟨k, hk⟩ := isCall_iff.mp hfirst
        rw [← hk] at he
        have hafter := h k split.2 he
        rw [hafter, List.append_nil] at he
        exact .call (he ▸ k.isCall)
    exact hfront.tokens_eq

/-- **Where tokens end.** A token ends at a blank, at the end of the row or, if it is a call, at its
bracket. So tokens are set apart by blanks, and no run of the row is cut, exactly if a blank or the
end follows the calls that stand at the front or behind a blank; and an entry without blanks is
one token exactly if nothing follows a call at its front. -/
theorem tokens_end_at_blanks_or_calls (row : Text) :
    Abutting (tokens row) row ∧
    (Spaced (tokens row) row ↔ runs row = (tokens row).flatMap runs) ∧
    (Spaced (tokens row) row ↔ CallsStop row) ∧
    ∀ entry, entry ≠ [] → Ink entry → (tokens entry = [entry] ↔
      ∀ (k : Call) (after : Text), entry = k.text ++ after → after = []) :=
  ⟨abutting_tokens row, spaced_tokens_iff_runs, spaced_tokens_iff_callsStop,
    fun _ => tokens_eq_singleton_iff⟩

/-- The entry `f(a),B` has no blanks and two items. It is cut behind the bracket, so that its row
has a cell too many. -/
theorem items_behind_a_call :
    tokens "1fr f(a),B".toList = ["1fr".toList, "f(a)".toList, ",B".toList] ∧
    ¬ Spaced (tokens "1fr f(a),B".toList) "1fr f(a),B".toList ∧
    runs "1fr f(a),B".toList = ["1fr".toList, "f(a),B".toList] ∧
    Layout.read {} ["1fr".toList, "1fr f(a),B".toList] =
      .error (.defect (.ambiguousSingleColumn 1 3)) := by
  have htokens : tokens "1fr f(a),B".toList = ["1fr".toList, "f(a)".toList, ",B".toList] := by
    decide +kernel
  have hruns : runs "1fr f(a),B".toList = ["1fr".toList, "f(a),B".toList] := by decide +kernel
  refine ⟨htokens, fun hspaced => ?_, hruns, by decide +kernel⟩
  have hcut := spaced_tokens_iff_runs.mp hspaced
  rw [hruns, htokens] at hcut
  revert hcut
  decide

end Token

end GridText
