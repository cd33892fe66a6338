import SmtSession.ModelValue
import SmtSession.Proofs.Adoption
import SmtSession.Proofs.ChoiceLists
import SmtSession.Proofs.ConformingTerms
import SmtSession.Proofs.Datatypes
import SmtSession.Proofs.Declarations
import SmtSession.Proofs.Dump
import SmtSession.Proofs.Effect
import SmtSession.Proofs.FirstDeclaration
import SmtSession.Proofs.LabelReading
import SmtSession.Proofs.Launches
import SmtSession.Proofs.ModelReport
import SmtSession.Proofs.ReportLayout
import SmtSession.Proofs.SExpr.Concatenation
import SmtSession.Proofs.SExpr.Failures
import SmtSession.Proofs.SExpr.Lookahead
import SmtSession.Proofs.SExpr.Quotation
import SmtSession.Proofs.SExpr.Retry
import SmtSession.Proofs.SExpr.RoundTrip
import SmtSession.Proofs.ScanPositions
import SmtSession.Proofs.Script.Conversion
import SmtSession.Proofs.TupleOperations
import SmtSession.Proofs.TupleTerms
import SmtSession.Proofs.UnhandledLog
import SmtSession.Proofs.ValueDecoding
import SmtSession.Proofs.VerdictJoin
import SmtSession.SExpr.Reader
import SmtSession.Session
import SmtSession.Solver.InProcess
import SmtSession.Solver.Runner
