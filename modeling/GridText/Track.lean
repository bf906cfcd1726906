import GridText.Defect
import GridText.Text.DecimalDigit

/-!
# Track sizes

A track size says how wide a column or how high a row is. It is a *simple* size, a number with a
unit or a keyword, or one of two calls: `minmax(a, b)` of two simple sizes and `fit-content(a)` of a
length or a percentage.

* `Track.Kind`: the kinds of size; the name of a unit or keyword is also how it is written.
* `Track.simpleKind?`, `Track.isSimple`: the kind of a simple size.
* `Track.Form`: a form of the grammar, and `Track.grammar`, the list of all forms.
* `Track.classifyBy`: what the first form that fits says of a text; `Track.classify` asks the whole
  grammar.
-/

namespace GridText.Track

/-- The kinds of track size. -/
inductive Kind where
  | pixel | fraction | em | percent | viewportHeight | viewportWidth
  | auto | minContent | maxContent
  | minmax | fitContent
  deriving DecidableEq, Repr

/-- The name of a kind. -/
def Kind.name : Kind → String
  | pixel => "px"
  | fraction => "fr"
  | em => "em"
  | percent => "%"
  | viewportHeight => "vh"
  | viewportWidth => "vw"
  | auto => "auto"
  | minContent => "min-content"
  | maxContent => "max-content"
  | minmax => "minmax"
  | fitContent => "fit-content"

/-- The kinds written as a number with a unit. -/
def measures : List Kind := [.pixel, .fraction, .em, .percent, .viewportHeight, .viewportWidth]

/-- The kinds written as a keyword. -/
def keywords : List Kind := [.auto, .minContent, .maxContent]

/-! ### Simple sizes -/

/-- One or more decimal digits, then the unit. -/
def isMeasure (unit : Kind) (s : Text) : Bool :=
  !(s.takeWhile isDecimalDigit).isEmpty && s.dropWhile isDecimalDigit == unit.name.toList

/-- The keyword and nothing else. -/
def isKeyword (word : Kind) (s : Text) : Bool := s == word.name.toList

/-- The **kind of a simple size**, if the text is one. -/
def simpleKind? (s : Text) : Option Kind :=
  (measures.find? (isMeasure · s)).or (keywords.find? (isKeyword · s))

/-- The text is a simple size. -/
def isSimple (s : Text) : Bool := (simpleKind? s).isSome

/-- The text is a length or a percentage. -/
def isLengthOrPercentage (s : Text) : Bool :=
  [Kind.pixel, Kind.em, Kind.percent].any (isMeasure · s)

/-! ### Calls -/

/-- The text in front of a last character, if the text has more than that character and ends in
it. -/
def beforeLast? (c : Char) (s : Text) : Option Text :=
  if s.getLast? = some c ∧ s.dropLast ≠ [] then some s.dropLast else none

/-- What follows a given beginning of the text, if the text begins so. -/
def after? (start s : Text) : Option Text :=
  if start.isPrefixOf s then some (s.drop start.length) else none

/-- The **arguments of a `minmax`**: two texts without blanks, between them a comma and then
blanks. -/
def minmaxArguments? (s : Text) : Option (Text × Text) := do
  let inner ← after? "minmax(".toList s
  let first ← beforeLast? ',' (inner.takeWhile isInk)
  let rest := inner.dropWhile isInk
  let last := Text.trimStart rest
  guard (!(Text.leadingBlanks rest).isEmpty && last.all isInk)
  let second ← beforeLast? ')' last
  return (first, second)

/-- The **argument of a `fit-content`**: a text without blanks. -/
def fitContentArgument? (s : Text) : Option Text := do
  let inner ← after? "fit-content(".toList s
  guard (inner.all isInk)
  beforeLast? ')' inner

/-! ### The grammar -/

/-- A **form of the grammar** says of a text that it is not of this form, or that it is a size of
some kind, or that it is of this form with arguments that are refused. -/
abbrev Form := Text → Option (Except Defect Kind)

/-- A number with a unit. -/
def Form.measure (unit : Kind) : Form := fun s => if isMeasure unit s then some (.ok unit) else none

/-- A keyword. -/
def Form.keyword (word : Kind) : Form := fun s => if isKeyword word s then some (.ok word) else none

/-- A `minmax`, of two simple sizes. -/
def Form.minmax : Form := fun s =>
  (minmaxArguments? s).map fun (first, second) =>
    if isSimple first && isSimple second then .ok .minmax else .error (.invalidMinmax s)

/-- A `fit-content`, of a length or a percentage. -/
def Form.fitContent : Form := fun s =>
  (fitContentArgument? s).map fun argument =>
    if isLengthOrPercentage argument then .ok .fitContent else .error (.invalidFitContent s)

/-- The **grammar of track sizes.** -/
def grammar : List Form :=
  [Form.minmax, Form.fitContent] ++ measures.map Form.measure ++ keywords.map Form.keyword

/-- What the first form that fits a text says of it; a text that no form fits is no track size. -/
def classifyBy (forms : List Form) (s : Text) : Except Defect Kind :=
  (forms.findSome? (· s)).getD (.error (.invalidTrackSize s))

/-- The **kind of a track size**, or why the text is none. -/
def classify (s : Text) : Except Defect Kind := classifyBy grammar s

/-- The text itself, if it is a track size. -/
def validate (s : Text) : Except Defect Text := (classify s).map fun _ => s

end GridText.Track
