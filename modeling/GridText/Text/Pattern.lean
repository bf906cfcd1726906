import GridText.Text.Blank

/-!
# Text: patterns

A pattern says what the front of a text looks like: single characters, one pattern behind another,
alternatives, repetition. Searching for it goes through the ways in which it fits, and the order of
these prefers the first of two alternatives, and one repetition more to one less. The first way is
taken, even if a later one would be longer.

* `Pattern.splits`: the ways in which a pattern fits the front of a text.
* `Pattern.findAll`, `Pattern.erase`: all texts that are found from left to right, and the text
  without them.
-/

namespace GridText

/-- **A pattern of texts.** -/
inductive Pattern
  /-- One character that meets a condition. -/
  | one (p : Char → Bool)
  /-- A pattern, and another one behind it. -/
  | seq (first second : Pattern)
  /-- One of two patterns, rather the first one. -/
  | either (first second : Pattern)
  /-- Any number of pieces of a pattern, rather more than fewer. -/
  | many (piece : Pattern)

namespace Pattern

/-- One character and more of them, all under the same condition. -/
def run (p : Char → Bool) : Pattern := .seq (.one p) (.many (.one p))

/-- The characters of a word, one behind the other. -/
def word : Text → Pattern
  | [] => .many (.one fun _ => false)
  | c :: w => .seq (.one (· = c)) (word w)

/-- A split of what is behind a front, as a split of the whole. -/
def behind (front : Text) (split : Text × Text) : Text × Text := (front ++ split.1, split.2)

/-- Splits behind any number of pieces that are split off one by one. A piece of no length would
be split off again and again, and is not. -/
def splitsMany (splitsPiece : Text → List (Text × Text)) (s : Text) : List (Text × Text) :=
  ((splitsPiece s).flatMap fun (t, r) =>
    if _ : r.length < s.length then (splitsMany splitsPiece r).map (behind t) else []) ++ [([], s)]
  termination_by s.length

/-- **The ways to split off a front that fits**, in the order in which a search tries them. -/
def splits : Pattern → Text → List (Text × Text)
  | one _, [] => []
  | one p, c :: s => if p c then [([c], s)] else []
  | seq first second, s => (first.splits s).flatMap fun (t, r) => (second.splits r).map (behind t)
  | either first second, s => first.splits s ++ second.splits s
  | many piece, s => splitsMany piece.splits s

/-- **All texts that are found from left to right**, each behind the one before. Where the pattern
does not fit, the search goes on with the next character. -/
def findAll (pattern : Pattern) : Text → List Text
  | [] => []
  | c :: s =>
    match (pattern.splits (c :: s)).head? with
    | some (t, r) =>
      if _ : r.length < (c :: s).length then t :: findAll pattern r else findAll pattern s
    | none => findAll pattern s
  termination_by s => s.length
  decreasing_by
    · assumption
    · exact Nat.lt_succ_self _
    · exact Nat.lt_succ_self _

/-- **What is left of a text without all texts that are found** from left to right. -/
def erase (pattern : Pattern) : Text → Text
  | [] => []
  | c :: s =>
    match (pattern.splits (c :: s)).head? with
    | some (_, r) =>
      if _ : r.length < (c :: s).length then erase pattern r else c :: erase pattern s
    | none => c :: erase pattern s
  termination_by s => s.length
  decreasing_by
    · assumption
    · exact Nat.lt_succ_self _
    · exact Nat.lt_succ_self _

end Pattern

end GridText
