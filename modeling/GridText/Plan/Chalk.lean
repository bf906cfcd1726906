import GridText.Text.Codes

/-!
# Chalks

A chalk colours a text by what it puts around it. A drawing hands the texts of its cells to the
colours of a chalk and relies on nothing but that each of them puts the text between two codes.

* `Chalk`: ten colours; `Chalk.palette`: the order in which items take them.
* `Chalk.Lawful`: every colour writes a code, the text and the code that resets it.
* `Chalk.terminal`: the chalk of a terminal.
-/

namespace GridText

/-- **What colours a text**, in each of ten colours. -/
structure Chalk where
  red : Text → Text
  green : Text → Text
  yellow : Text → Text
  blue : Text → Text
  magenta : Text → Text
  cyan : Text → Text
  redBright : Text → Text
  greenBright : Text → Text
  yellowBright : Text → Text
  blueBright : Text → Text

namespace Chalk

/-- The colours in the order in which items take them. -/
def palette (chalk : Chalk) : List (Text → Text) :=
  [chalk.red, chalk.green, chalk.yellow, chalk.blue, chalk.magenta, chalk.cyan, chalk.redBright,
    chalk.greenBright, chalk.yellowBright, chalk.blueBright]

/-- A colour writes these parameters: a text is put between their code and the one that resets
it. -/
structure Writes (colour : Text → Text) (parameters : Text) : Prop where
  isParameter : ∀ c ∈ parameters, Text.isParameter c = true
  eq_coded : ∀ s, colour s = Text.coded parameters s

/-- **A chalk that writes codes.** -/
def Lawful (chalk : Chalk) : Prop :=
  ∀ colour ∈ chalk.palette, ∃ parameters, Writes colour parameters

/-- The **chalk of a terminal**: the numbers of its colours, bright ones from 90 on. -/
def terminal : Chalk where
  red := Text.coded ['3', '1']
  green := Text.coded ['3', '2']
  yellow := Text.coded ['3', '3']
  blue := Text.coded ['3', '4']
  magenta := Text.coded ['3', '5']
  cyan := Text.coded ['3', '6']
  redBright := Text.coded ['9', '1']
  greenBright := Text.coded ['9', '2']
  yellowBright := Text.coded ['9', '3']
  blueBright := Text.coded ['9', '4']

end Chalk

end GridText
