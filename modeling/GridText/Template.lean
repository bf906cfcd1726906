import GridText.Numeral.Decimal
import GridText.Numeral.Shortest
import GridText.Text.Split

/-!
# Templates

A template is a list of literal fragments with one value between each two of them. A value becomes
text: a sequence becomes the texts of its elements with commas between them, to any depth.

* `Value`: the values that a template may hold.
* `Template.Error`: why a template has no text, with `Template.Error.message`.
* `Value.write`, `Value.writeAll`: the text of a value, the texts of a list of values, or the first
  value in it that has none.
* `Template.weave`: fragments and texts in turns.
* `Template.interpolate`: the text of a template.
-/

namespace GridText

/-- A **value of a template.** -/
inductive Value where
  | nothing
  | text (s : Text)
  | truth (b : Bool)
  | integer (n : Int)
  | float (x : Binary64)
  | decimal (d : Decimal)
  | fraction (r : Rat)
  | sequence (elements : List Value)
  /-- A value of a type that has no place in a template, as it is shown. -/
  | unsupported (typeName shown : Text)
  deriving Repr

/-- Why a template has no text. -/
inductive Template.Error where
  /-- The number of values is not one less than the number of fragments. -/
  | valueCount (fragments values : Nat)
  /-- A value has an unsupported type. -/
  | unsupported (typeName shown : Text)
  /-- A fraction that is no integer lies beyond all floating point numbers. -/
  | fractionTooLarge
  deriving DecidableEq, Repr

/-- The message of an error. -/
def Template.Error.message : Template.Error → String
  | valueCount fragments values =>
    let expected : Int := fragments - 1
    s!"Expected {expected} values for {fragments} fragments, got {values}"
  | unsupported typeName shown =>
    s!"Cannot interpolate value of type {String.ofList typeName}: {String.ofList shown}"
  | fractionTooLarge => "integer division result too large for a float"

/-- The text of a fraction: an integer in full, any other one as the nearest floating point
number. -/
def Value.writeFraction (r : Rat) : Except Template.Error Text :=
  if r.den = 1 then .ok (Numeral.ofInt r.num)
  else match Binary64.nearest? r with
    | some x => .ok x.write
    | none => .error .fractionTooLarge

mutual

/-- The **text of a value.** -/
def Value.write : Value → Except Template.Error Text
  | nothing => .ok []
  | text s => .ok s
  | truth b => .ok (if b then "true" else "false").toList
  | integer n => .ok (Numeral.ofInt n)
  | float x => .ok x.write
  | decimal d => .ok d.write
  | fraction r => Value.writeFraction r
  | sequence elements => (Value.writeAll elements).map (Text.joinWith [','])
  | unsupported typeName shown => .error (.unsupported typeName shown)

/-- The texts of a list of values, or the error of the first value without one. -/
def Value.writeAll : List Value → Except Template.Error (List Text)
  | [] => .ok []
  | value :: values => do
    let first ← Value.write value
    let others ← Value.writeAll values
    return first :: others

end

namespace Template

/-- Fragments and texts in turns, beginning with a fragment. -/
def weave : List Text → List Text → Text
  | fragment :: fragments, text :: texts => fragment ++ text ++ weave fragments texts
  | fragments, _ => fragments.flatten

/-- The **text of a template.** The number of values is checked before any of them is written. -/
def interpolate (fragments : List Text) (values : List Value) : Except Error Text :=
  if values.length + 1 = fragments.length then (Value.writeAll values).map (weave fragments)
  else .error (.valueCount fragments.length values.length)

end Template

end GridText
