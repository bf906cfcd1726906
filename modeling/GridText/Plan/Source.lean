import GridText.Plan.Basic
import GridText.Template
import GridText.Text.Lines

/-!
# Sources of a plan

A plan is read from a list of lines, or from a template. The text of a template may be indented and
hold blank lines: every line is trimmed, and the lines that are then empty do not count.

* `Source`: lines or a template; `Source.Error`: why there is no plan.
* `Source.rowsOfText`: the lines of a text that count.
* `Plan.ofText`, `Plan.ofSource`: the plan of a text, of a source.
-/

namespace GridText

/-- What a plan is read from. -/
inductive Source where
  | rows (rows : List Text)
  | template (fragments : List Text) (values : List Value)

namespace Source

/-- Why a source has no plan. -/
inductive Error where
  | template (e : Template.Error)
  | fault (f : Fault)
  deriving DecidableEq, Repr

/-- The message of an error. -/
def Error.message : Error → String
  | template e => e.message
  | fault f => f.message

/-- The lines of a text without the blanks around them, those that hold nothing else left out. -/
def rowsOfText (text : Text) : List Text := ((Text.lines text).map Text.trim).filter (· ≠ [])

end Source

namespace Plan

/-- The **plan of a text.** -/
def ofText (rules : Rules) (text : Text) : Except Fault Plan :=
  ofRows rules (Source.rowsOfText text)

/-- The **plan of a source.** -/
def ofSource (rules : Rules) : Source → Except Source.Error Plan
  | .rows rows => (ofRows rules rows).mapError .fault
  | .template fragments values => do
    let text ← (Template.interpolate fragments values).mapError .template
    (ofText rules text).mapError .fault

end Plan

end GridText
