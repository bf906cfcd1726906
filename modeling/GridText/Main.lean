import GridText.Viewer

/-!
# The command line of the viewer

`main` shows the layout that its arguments name: what is printed goes to the standard output, the
journal to the standard error.
-/

namespace GridText.Viewer

/-- Prints lines on a stream. -/
def printLines (stream : IO.FS.Stream) (lines : List Text) : IO Unit :=
  lines.forM fun line => stream.putStrLn (String.ofList line)

/-- The text of a sample, or else of a file. -/
def readLayout (name : Text) : IO Text := do
  match sample? name with
  | some text => return text
  | none => return (← IO.FS.readFile (String.ofList (fileName name))).toList

end GridText.Viewer

open GridText.Viewer in
/-- Shows the layout that the arguments name. -/
def main (arguments : List String) : IO UInt32 := do
  let request := Request.ofArguments (arguments.map String.toList)
  try
    let shown := report request (← readLayout request.name)
    printLines (← IO.getStderr) shown.journal
    printLines (← IO.getStdout) shown.output
    return shown.status.toUInt32
  catch _ =>
    printLines (← IO.getStderr) [missingFile request.name]
    return 1
