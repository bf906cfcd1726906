import GridText.Defect

/-!
# Tokens of a row

A row is cut into tokens. A *call* is a name, an opening bracket, and arguments with a comma and
blanks between them up to a closing bracket: `minmax(1px, 2fr)`. Where a call begins it is the next
token, blanks and all; elsewhere the next token is the longest run without blanks.

* `Token.arguments?`: the rest of a call behind its opening bracket, and what follows the call.
* `Token.call?`: the call at the front of a text, and what follows it.
* `Token.cut`: the token at the front of a text that begins with no blank, and what follows it.
* `Token.tokens`: all tokens; `Token.scan` refuses a row without any.
* `Token.arguments?_append`, `Token.call?_append`, `Token.cut_append`: a token and what follows it
  are the text that was cut, so nothing is lost.
* `Token.tokens_eq_nil_iff`: only blanks have no token.
-/

namespace GridText.Token

/-- A character of an argument: neither blank nor bracket. -/
def isArgumentChar (c : Char) : Bool := isInk c && c ≠ '(' && c ≠ ')'

/-- A character of the name of a call: neither blank nor opening bracket. -/
def isNameChar (c : Char) : Bool := isInk c && c ≠ '('

/-- An argument that another one may follow: a text without commas, then one comma. -/
def endsInComma (argument : Text) : Bool :=
  argument.getLast? = some ',' && argument.dropLast ≠ [] && ',' ∉ argument.dropLast

/-- The argument at the front of a text. -/
def argument (s : Text) : Text := s.takeWhile isArgumentChar

/-- What follows the argument at the front of a text. -/
def afterArgument (s : Text) : Text := s.dropWhile isArgumentChar

theorem argument_append (s : Text) : argument s ++ afterArgument s = s :=
  List.takeWhile_append_dropWhile

theorem length_trimStart_afterArgument_lt {s : Text} (h : argument s ≠ []) :
    (Text.trimStart (afterArgument s)).length < s.length := by
  have hlen := congrArg List.length (argument_append s)
  have hpos := List.length_pos_iff.2 h
  have hle := Text.length_trimStart_le (afterArgument s)
  rw [List.length_append] at hlen
  omega

/-- The **rest of a call** behind its opening bracket, up to the closing one, and what follows it.
Every argument but the last ends in a comma before blanks. -/
def arguments? (s : Text) : Option (Text × Text) :=
  if _ : argument s = [] then none
  else if (afterArgument s).head? = some ')' then
    some (argument s ++ [')'], (afterArgument s).drop 1)
  else if endsInComma (argument s) ∧ (afterArgument s).head?.any isBlank then
    (arguments? (Text.trimStart (afterArgument s))).map fun (others, after) =>
      (argument s ++ Text.leadingBlanks (afterArgument s) ++ others, after)
  else none
  termination_by s.length
  decreasing_by exact length_trimStart_afterArgument_lt ‹_›

/-- The **call at the front of a text**, and what follows it. -/
def call? (s : Text) : Option (Text × Text) :=
  match s.takeWhile isNameChar, s.dropWhile isNameChar with
  | c :: name, '(' :: rest =>
    (arguments? rest).map fun (inner, after) => (c :: name ++ '(' :: inner, after)
  | _, _ => none

/-- The **token at the front** of a text that begins with no blank, and what follows it: a call, or
else the longest run without blanks. -/
def cut (s : Text) : Text × Text := (call? s).getD (s.takeWhile isInk, s.dropWhile isInk)

theorem arguments?_append {s inner after : Text} (h : arguments? s = some (inner, after)) :
    inner ++ after = s := by
  fun_induction arguments? s generalizing inner after with
  | case1 => simp at h
  | case2 s _ hclose =>
    obtain ⟨tail, htail⟩ : ∃ tail, afterArgument s = ')' :: tail := List.head?_eq_some_iff.1 hclose
    simp only [Option.some.injEq, Prod.mk.injEq] at h
    obtain ⟨rfl, rfl⟩ := h
    calc argument s ++ [')'] ++ (afterArgument s).drop 1
        = argument s ++ afterArgument s := by simp [htail]
      _ = s := argument_append s
  | case3 s _ _ _ ih =>
    simp only [Option.map_eq_some_iff, Prod.mk.injEq, Prod.exists] at h
    obtain ⟨others, after', h', rfl, rfl⟩ := h
    calc argument s ++ Text.leadingBlanks (afterArgument s) ++ others ++ after'
        = argument s ++ (Text.leadingBlanks (afterArgument s) ++ (others ++ after')) := by simp
      _ = argument s ++ afterArgument s := by rw [ih h', Text.leadingBlanks_append_trimStart]
      _ = s := argument_append s
  | case4 => simp at h

theorem call?_append {s token after : Text} (h : call? s = some (token, after)) :
    token ++ after = s ∧ token ≠ [] := by
  unfold call? at h
  split at h
  · next c name rest hname hrest =>
    simp only [Option.map_eq_some_iff, Prod.mk.injEq, Prod.exists] at h
    obtain ⟨inner, after', h', rfl, rfl⟩ := h
    refine ⟨?_, by simp⟩
    calc c :: name ++ '(' :: inner ++ after'
        = c :: name ++ '(' :: (inner ++ after') := by simp
      _ = s.takeWhile isNameChar ++ s.dropWhile isNameChar := by
          rw [arguments?_append h', hname, hrest]
      _ = s := List.takeWhile_append_dropWhile
  · simp at h

/-- Cutting loses nothing. -/
theorem cut_append (s : Text) : (cut s).1 ++ (cut s).2 = s := by
  unfold cut
  cases h : call? s with
  | none => exact List.takeWhile_append_dropWhile
  | some _ => exact (call?_append h).1

theorem cut_ne_nil {c : Char} (hc : isBlank c = false) (s : Text) : (cut (c :: s)).1 ≠ [] := by
  unfold cut
  cases h : call? (c :: s) with
  | none => simp [isInk, hc]
  | some _ => exact (call?_append h).2

/-- The token at the front is not empty, so what follows it is shorter than the text. -/
theorem length_cut_lt {c : Char} {s r : Text} (h : Text.trimStart s = c :: r) :
    (cut (c :: r)).2.length < s.length := by
  have hc : isBlank c = false := by
    have := List.head?_dropWhile_not isBlank s
    rw [← Text.trimStart, h] at this
    simpa using this
  have hlen := congrArg List.length (cut_append (c :: r))
  have hpos := List.length_pos_iff.2 (cut_ne_nil hc r)
  have hle := Text.length_trimStart_le s
  rw [h] at hle
  rw [List.length_append] at hlen
  omega

/-- The **tokens of a text**, from left to right; blanks between them are skipped. -/
def tokens (s : Text) : List Text :=
  match _ : Text.trimStart s with
  | [] => []
  | c :: rest => (cut (c :: rest)).1 :: tokens (cut (c :: rest)).2
  termination_by s.length
  decreasing_by exact length_cut_lt ‹_›

theorem tokens_of_trimStart_eq_nil {s : Text} (h : Text.trimStart s = []) : tokens s = [] := by
  unfold tokens; split <;> simp_all

theorem tokens_of_trimStart_eq_cons {s : Text} {c : Char} {rest : Text}
    (h : Text.trimStart s = c :: rest) :
    tokens s = (cut (c :: rest)).1 :: tokens (cut (c :: rest)).2 := by
  rw [tokens]; split <;> simp_all

/-- A **text has no token exactly when it holds nothing but blanks.** -/
theorem tokens_eq_nil_iff {s : Text} : tokens s = [] ↔ ∀ c ∈ s, isBlank c = true := by
  rw [← Text.trimStart_eq_nil_iff]
  cases h : Text.trimStart s with
  | nil => simp [tokens_of_trimStart_eq_nil h]
  | cons c rest => simp [tokens_of_trimStart_eq_cons h]

/-- The **tokens of a row**, which must hold more than blanks. -/
def scan (row : Text) : Except Defect (List Text) :=
  match tokens row with
  | [] => .error (.malformedRow row)
  | found => .ok found

end GridText.Token
