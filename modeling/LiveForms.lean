import LiveForms.Main
import LiveForms.Proofs.Expr.Parsing
import LiveForms.Proofs.Document.Runs
import LiveForms.Proofs.Document.Order
import LiveForms.Proofs.Document.Index
import LiveForms.Proofs.Document.Creation
import LiveForms.Proofs.Document.Search
import LiveForms.Proofs.Document.Walks
import LiveForms.Proofs.Document.Moves
import LiveForms.Proofs.Page.Numbering
import LiveForms.Proofs.Formula.Reads
import LiveForms.Proofs.Formula.Refresh
import LiveForms.Proofs.Formula.Rows
import LiveForms.Proofs.Formula.Settled
import LiveForms.Proofs.Session.UpToDate
import LiveForms.Proofs.Formula.AtOnce
import LiveForms.Proofs.Formula.Averages
import LiveForms.Proofs.Session.Steps
import LiveForms.Proofs.Session.Effects
import LiveForms.Proofs.Session.Zipper
import LiveForms.Proofs.Session.Editing
import LiveForms.Proofs.Session.Cancelling
import LiveForms.Proofs.Decimal.Written
import LiveForms.Proofs.Formula.Rendering
import LiveForms.Proofs.Formula.Overflow
import LiveForms.Proofs.Session.Rendered
import LiveForms.Proofs.Session.Frame
import LiveForms.Proofs.Session.Focus
import LiveForms.Proofs.Session.AddedRows
import LiveForms.Proofs.Expr.Names
import LiveForms.Proofs.Formula.Expressions
import LiveForms.Proofs.Formula.Dependence
import LiveForms.Proofs.Document.Apart
import LiveForms.Proofs.Session.PassingRows
import LiveForms.Proofs.Formula.EmptyRows
import LiveForms.Proofs.Session.NeutralRows
import LiveForms.Proofs.Session.RowOrder
import LiveForms.Proofs.Session.Clicks
import LiveForms.Proofs.Decimal.Readers
import LiveForms.Proofs.Formula.Literals
import LiveForms.Proofs.Decimal.Ranks
import LiveForms.Proofs.Decimal.Bits
import LiveForms.Proofs.Decimal.ReadBack
import LiveForms.Proofs.Decimal.Notations
import LiveForms.Proofs.Formula.TypedBack
import LiveForms.Proofs.Expr.Lexing
import LiveForms.Proofs.Screen.Layout
import LiveForms.Proofs.Screen.Scrolling
import LiveForms.Proofs.Decimal.Leading
import LiveForms.Proofs.Text.Patterns
import LiveForms.Proofs.Decimal.LeadingPattern
import LiveForms.Proofs.Formula.Cells
