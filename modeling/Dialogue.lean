import Dialogue.Check.Routing
import Dialogue.Edit.Canvas
import Dialogue.Edit.Duplicate
import Dialogue.Edit.Flow
import Dialogue.Graph.Transfer
import Dialogue.Main
import Dialogue.Proofs.Document.Entries
import Dialogue.Proofs.Document.Outcome
import Dialogue.Proofs.Document.Same
import Dialogue.Proofs.Flow.Checked
import Dialogue.Proofs.Edit.Rename
import Dialogue.Proofs.Edit.Session
import Dialogue.Proofs.Graph.RoundTrip
import Dialogue.Proofs.Script.Routing
import Dialogue.Proofs.Flow.Writing
import Dialogue.Script.Module
import Dialogue.Proofs.Graph.Reconcile
import Dialogue.Proofs.Edit.Written
import Dialogue.Proofs.Edit.Agreement
import Dialogue.Proofs.Literal.Spelling
import Dialogue.Proofs.Script.Quoting
import Dialogue.Proofs.Script.Docstring
import Dialogue.Proofs.Flow.Reread
import Dialogue.Proofs.Script.Form
import Dialogue.Proofs.Flow.Naming
import Dialogue.Proofs.Flow.Reload
import Dialogue.Proofs.Graph.Refresh
import Dialogue.Proofs.Check.Gate
import Dialogue.Proofs.Edit.Loadable
import Dialogue.Proofs.Script.Bindings
import Dialogue.Proofs.Command.Agreement
import Dialogue.Proofs.Graph.Regathering
import Dialogue.Proofs.Graph.Dragging
import Dialogue.Proofs.Graph.Distinct
import Dialogue.Proofs.Script.Scope
import Dialogue.Proofs.Script.Actions
import Dialogue.Proofs.Graph.Tracing
import Dialogue.Proofs.Flow.DecisionId
import Dialogue.Proofs.Edit.Moving
import Dialogue.Proofs.Edit.Dangling
import Dialogue.Proofs.Edit.Copying
import Dialogue.Proofs.Script.ActionBlock
import Dialogue.Proofs.Edit.Deletion
import Dialogue.Proofs.Literal.Scanning
import Dialogue.Proofs.Literal.Numbers
import Dialogue.Proofs.Literal.Forms
import Dialogue.Proofs.Literal.Notation
import Dialogue.Proofs.Script.Display
import Dialogue.Proofs.Script.ConditionValue
import Dialogue.Proofs.Script.SharedTypes
import Dialogue.Proofs.Script.ClassNames
import Dialogue.Proofs.Graph.SavedPositions
import Dialogue.Proofs.Graph.Redrawing
import Dialogue.Proofs.Edit.Detaching
import Dialogue.Proofs.Script.Locals
