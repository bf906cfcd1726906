import GridText.Main
import GridText.Session
import GridText.Proofs.Layout.Areas
import GridText.Proofs.Layout.Clashes
import GridText.Proofs.Layout.Rectangles
import GridText.Proofs.Plan.Rewriting
import GridText.Proofs.Layout.Defects
import GridText.Proofs.Layout.Expressing
import GridText.Proofs.Text.Runs
import GridText.Proofs.Row.Alignment
import GridText.Proofs.Layout.Alignment
import GridText.Proofs.Plan.Alignment
import GridText.Proofs.Layout.Restoring
import GridText.Proofs.Layout.Prefixes
import GridText.Proofs.Layout.Interior
import GridText.Proofs.Plan.Geometry
import GridText.Proofs.Row.Scanning
import GridText.Proofs.Row.Boundaries
import GridText.Proofs.Track.Kinds
import GridText.Proofs.Layout.Survey
import GridText.Proofs.Row.Flaws
import GridText.Proofs.Plan.Drawing
import GridText.Proofs.Plan.Preview
import GridText.Proofs.Plan.Source
import GridText.Proofs.Text.Codes
import GridText.Proofs.Plan.Colours
import GridText.Proofs.Layout.Columns
import GridText.Proofs.Numeral.Range
import GridText.Proofs.Template
import GridText.Proofs.Numeral.Digits
import GridText.Proofs.Numeral.Words
import GridText.Proofs.Plan.Children
import GridText.Proofs.Plan.WholeNumbers
import GridText.Proofs.Session
import GridText.Proofs.Viewer
import GridText.Proofs.Session
import GridText.Proofs.Viewer
