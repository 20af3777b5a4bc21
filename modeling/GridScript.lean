import GridScript.Main
import GridScript.Storage.Disk
import GridScript.Proofs.Script.ReadBack
import GridScript.Proofs.Script.Neighbours
import GridScript.Proofs.Document.LastWrite
import GridScript.Proofs.Document.Rereading
import GridScript.Proofs.Document.Seeding
import GridScript.Proofs.Document.Session
import GridScript.Proofs.Document.Desk
import GridScript.Proofs.Document.Undoing
import GridScript.Proofs.Project.WellFormed
import GridScript.Proofs.Document.Saving
import GridScript.Proofs.Command.Reading
import GridScript.Proofs.Script.Placement
import GridScript.Proofs.Project.Reported
import GridScript.Proofs.Project.Formulas
import GridScript.Proofs.Command.CellEdits
import GridScript.Proofs.Document.Recorded
import GridScript.Proofs.Project.Operands
import GridScript.Proofs.Formula.Fallback
import GridScript.Proofs.Project.Sections
import GridScript.Proofs.Grid.Numerals
import GridScript.Proofs.Project.Minimizing
import GridScript.Proofs.Script.Selection
import GridScript.Proofs.Value.Grids
import GridScript.Proofs.Script.Bodies
import GridScript.Proofs.Script.Literals
