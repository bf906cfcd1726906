import GridText.Plan.Basic

/-!
# Children of a plan

A strip of columns or rows takes as many children as it has tracks, by position. Any other layout
takes a child by name for each of its items.

* `SlotFault`: why some children do not fit, with `SlotFault.message`.
* `Plan.checkChildren`, `Plan.checkSlots`: whether children by position, by name, fit.
-/

namespace GridText

/-- Why some children do not fit a plan. -/
inductive SlotFault where
  /-- Children came by position to a layout with named items. -/
  | positionalChildren
  /-- Children came by name to a strip of this shape. -/
  | namedChildren (shape : Shape)
  /-- A strip of this shape got another number of children than it has tracks. -/
  | childCount (shape : Shape) (required : Nat) (given : Int)
  /-- No child has the name of this item. -/
  | missingSlot (item : Text)
  deriving DecidableEq, Repr

namespace SlotFault

/-- The name of the kind of a fault. -/
def kindName : SlotFault → String
  | positionalChildren | namedChildren _ => "unexpected_positional"
  | childCount .. => "child_count_mismatch"
  | missingSlot _ => "missing_slot"

/-- The message of a fault. -/
def message : SlotFault → String
  | positionalChildren => "Grid layouts take named child slots, not positional children"
  | namedChildren shape => s!"{shape.name} layouts take positional children, not named slots"
  | childCount shape required given =>
    let label := if shape = .columnOnly then "Column-only" else "Row-only"
    s!"{label} easy grid requires {required} children, got {given}"
  | missingSlot item => s!"No child slot named {String.ofList item} found."

end SlotFault

namespace Plan

/-- So many children by position fit the plan. -/
def checkChildren (p : Plan) (count : Int) : Except SlotFault Unit :=
  match p.trackCount with
  | none => .error .positionalChildren
  | some required =>
    if count = required then .ok () else .error (.childCount p.shape required count)

/-- Children of these names fit the plan: every item has one. -/
def checkSlots (p : Plan) (names : List Text) : Except SlotFault Unit :=
  if p.isPositional then .error (.namedChildren p.shape)
  else match p.orderedItems.find? (!names.contains ·) with
    | some item => .error (.missingSlot item)
    | none => .ok ()

end Plan

end GridText
