import GridText.Text.Pad

/-!
# Console: lines of a limited width

A line that is too long is broken between its words. A word carries the blanks behind it, and the
first one also those in front; blanks that reach over the edge are dropped. A word that is longer
than a line is broken anywhere.

* `Console.expandTabs`: tabulators as spaces up to the next multiple of eight.
* `Console.words`: the words of a line with their blanks.
* `Console.chop`: pieces of a given length.
* `Console.wrapWords`, `Console.wrap`: the lines of a list of words, of a line.
-/

namespace GridText.Console

/-- Tabulators as spaces up to the next multiple of eight, from a given column on. -/
def expandTabsFrom : Nat → Text → Text
  | _, [] => []
  | column, c :: rest =>
    if c = '\t' then
      let gap := 8 - column % 8
      Text.spaces gap ++ expandTabsFrom (column + gap) rest
    else c :: expandTabsFrom (column + 1) rest

/-- Tabulators as spaces up to the next multiple of eight. -/
def expandTabs (s : Text) : Text := expandTabsFrom 0 s

/-- The words of a line behind the beginning of a word. A new word starts with a character that
follows a blank, once the word before it has a character other than blanks. -/
def wordsFrom (word : Text) : Text → List Text
  | [] => if word = [] then [] else [word]
  | c :: rest =>
    if isInk c ∧ word.getLast?.any isBlank ∧ word.any isInk then word :: wordsFrom [c] rest
    else wordsFrom (word ++ [c]) rest

/-- The words of a line with their blanks. -/
def words (s : Text) : List Text := wordsFrom [] s

/-- The pieces of a text, all but the last of the given length. -/
def chop (width : Nat) (s : Text) : List Text :=
  if _ : s.length ≤ width ∨ width = 0 then [s] else s.take width :: chop width (s.drop width)
  termination_by s.length
  decreasing_by simp only [List.length_drop]; omega

/-- The lines of a list of words, the first line having begun. -/
def wrapWords (width : Nat) : Text → List Text → List Text
  | line, [] => [line]
  | line, word :: words =>
    let length := (Text.trimEnd word).length
    if line.length + length ≤ width then wrapWords width (line ++ word) words
    else if length ≤ width then line :: wrapWords width word words
    else
      let pieces := chop width word
      (if line = [] then [] else [line]) ++ pieces.dropLast ++
        wrapWords width (pieces.getLast?.getD []) words

/-- A **line broken at a width**, each part filled with spaces up to it. -/
def wrap (width : Nat) (s : Text) : List Text :=
  (wrapWords width [] (words (expandTabs s))).map fun line => Text.padRight width (line.take width)

end GridText.Console
