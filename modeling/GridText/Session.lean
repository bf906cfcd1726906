import GridText.Layout.Writing
import GridText.Plan.Preview
import GridText.Plan.Slots
import GridText.Plan.Source
import GridText.Plan.Summary

/-!
# Sessions

A session holds at most one plan and answers one step after the other. A new plan takes the place of
the old one only if it could be read.

* `Session.Step`, `Session.Answer`: what can be asked, and what is answered.
* `Session.install`: the answer to an attempt to read a plan, and the plan that is held then.
* `Session.step`, `Session.run`: one step, a list of steps from the beginning.
-/

namespace GridText.Session

/-- A **step of a session.** -/
inductive Step where
  /-- Read a plan. -/
  | compile (rules : Rules) (source : Source)
  /-- Check a number of children by position. -/
  | checkChildren (count : Int)
  /-- Check the names of children. -/
  | checkSlots (names : List Text)
  /-- Draw the plan. -/
  | preview (o : Preview.Options)
  /-- Tabulate the plan. -/
  | summary
  /-- Write the layout of the plan as lines. -/
  | write
  /-- Read the lines so written. -/
  | reread

/-- An **answer of a session.** -/
inductive Answer where
  | plan (p : Plan)
  | refused (e : Source.Error)
  | fits
  | unfit (f : SlotFault)
  | drawing (s : Text)
  | summary (s : Summary)
  | lines (ls : List Text)
  /-- No plan is held that the step could speak of. -/
  | noPlan

/-- A plan that could be read is held from now on; otherwise the old one stays. -/
def install (current : Option Plan) : Except Source.Error Plan → Option Plan × Answer
  | .ok p => (some p, .plan p)
  | .error e => (current, .refused e)

/-- Whether children fit. -/
def fitting : Except SlotFault Unit → Answer
  | .ok () => .fits
  | .error f => .unfit f

section

variable (chalk : Chalk)

/-- One **step**: the plan that is held afterwards, and the answer. -/
def step (current : Option Plan) (s : Step) : Option Plan × Answer :=
  match s, current with
  | .compile rules source, _ => install current (Plan.ofSource rules source)
  | _, none => (none, .noPlan)
  | .checkChildren count, some p => (current, fitting (p.checkChildren count))
  | .checkSlots names, some p => (current, fitting (p.checkSlots names))
  | .preview o, some p => (current, .drawing (p.preview o chalk))
  | .summary, some p => (current, .summary p.summary)
  | .write, some p => (current, .lines (p.layout.write p.rules))
  | .reread, some p => install current (Plan.ofSource p.rules (.rows (p.layout.write p.rules)))

/-- The answers to a list of steps while a plan is held, or none. -/
def answers : Option Plan → List Step → List Answer
  | _, [] => []
  | current, s :: steps => (step chalk current s).2 :: answers (step chalk current s).1 steps

end

/-- The **answers to a list of steps**; at first no plan is held. -/
def run (steps : List Step) (chalk : Chalk := .terminal) : List Answer := answers chalk none steps

end GridText.Session
