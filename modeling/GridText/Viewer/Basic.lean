import GridText.Journal
import GridText.Plan.Source
import GridText.Plan.Summary

/-!
# Showing a layout

The viewer shows one layout on the console: one of its samples, or the text of a file. What it puts
on the console are blocks; how these are laid out is the affair of the console.

* `Viewer.Request`: the name of what is shown, and whether a journal is kept;
  `Viewer.Request.ofArguments` reads it off the arguments of the command line.
* `Viewer.sample?`: the samples by their names.
* `Viewer.fileName`: the name of a file without idle steps.
* `Viewer.Block`, `Viewer.Outcome`: what is put on the console, and with it what is noted and the
  exit status.
* `Viewer.outcome`: the outcome for a text.
-/

namespace GridText.Viewer

/-- What is shown. -/
structure Request where
  name : Text
  journal : Bool
  deriving DecidableEq, Repr

/-- The request of a command line: the first argument that is no option names the layout. -/
def Request.ofArguments (arguments : List Text) : Request :=
  let option := "--verbose".toList
  let names := arguments.filter (· ≠ option)
  ⟨names.head?.getD "plaid".toList, arguments.contains option⟩

/-- The samples, each with its lines. -/
def samples : List (String × List String) :=
  [("plaid",
      ["       1fr    100px  1fr",
       "1fr    A      A,B    B",
       "100px  A      A,B    B",
       "1fr    C      C      .."]),
    ("button_badge",
      ["      minmax(10px, auto)  20px",
       "20px  Button              Button,Badge",
       "auto  Button              Button"]),
    ("spacer",
      ["      1fr   10em  1fr",
       "1fr   ..    ..    ..",
       "10em  ..    Box   ..",
       "1fr   ..    ..    .."]),
    ("column_only",
      ["1fr  fit-content(20%)  3fr"]),
    ("row_only",
      ["1fr",
       "min-content",
       "2fr"]),
    ("broken",
      ["     1fr  2fr",
       "1fr  A,B  C,D",
       "2fr  C,D  C,D"])]

/-- The text of a sample. -/
def sample? (name : Text) : Option Text :=
  (samples.find? (·.1.toList = name)).map fun (_, lines) =>
    Text.joinWith ['\n'] (lines.map String.toList)

/-! ### Files -/

/-- The steps of a name between its slashes, without those that are empty or stay where they are. -/
def steps (name : Text) : List Text :=
  (Text.splitOn ['/'] name).filter fun step => step ≠ [] ∧ step ≠ ['.']

/-- The number of slashes in front of a name. -/
def slashes (name : Text) : Nat := (name.takeWhile (· = '/')).length

/-- Some steps behind some slashes. -/
def path (slashes : Nat) (steps : List Text) : Text :=
  List.replicate slashes '/' ++ Text.joinWith ['/'] steps

/-- The name of a file without idle steps. Two slashes in front, and no more, are kept as they
are. -/
def fileName (name : Text) : Text :=
  let found := path (if slashes name = 2 then 2 else min (slashes name) 1) (steps name)
  if found = [] then ['.'] else found

/-- The message on a file that does not exist. -/
def missingFile (name : Text) : Text :=
  "[Errno 2] No such file or directory: ".toList ++ Text.Quoted.encode (fileName name)

/-! ### Blocks -/

/-- What is put on the console. -/
inductive Block where
  /-- A text in a panel with a title. -/
  | panel (title s : Text)
  /-- A drawing in a panel with a title; the console knows the codes in it. -/
  | drawing (title s : Text)
  /-- A line of its own. -/
  | line (s : Text)
  | table (s : Summary)
  deriving DecidableEq, Repr

/-- What comes of showing a text. -/
structure Outcome where
  status : Nat
  blocks : List Block
  journal : List Text
  deriving DecidableEq, Repr

/-- The title over a layout. -/
def title (name : Text) : Text := "easygrid - ".toList ++ name

/-- What is put on the console of a plan: its drawing, and how it is filled. -/
def planBlocks (name : Text) (p : Plan) (chalk : Chalk) : List Block :=
  [.drawing (title name) (p.preview {} chalk),
    match p.trackCount with
    | some count => .line s!"Requires {count} positional children".toList
    | none => .table p.summary]

/-- The text on a fault: its kind on a line of its own, and its message. -/
def faultText (f : Fault) : Text :=
  let headline := match f with
    | .defect d => s!"{d.kind.name} ({d.kind.category.name})\n".toList
    | .emptySeparator => []
  headline ++ f.message.toList

/-- The **outcome for a text.** -/
def outcome (request : Request) (text : Text) (chalk : Chalk) : Outcome :=
  let rules : Rules := {}
  let rows := Source.rowsOfText text
  let notes (lines : List Text) : List Text := if request.journal then lines else []
  let read := Journal.reading rules rows
  match Plan.ofRows rules rows with
  | .ok p =>
    ⟨0, planBlocks request.name p chalk, notes (read ++ Journal.plan p ++ Journal.drawing p {})⟩
  | .error f => ⟨1, [.panel (title request.name) (faultText f)], notes read⟩

end GridText.Viewer
