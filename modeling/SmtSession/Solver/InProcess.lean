import SmtSession.Solver.Label
import SmtSession.Text.Pieces
import SmtSession.Text.Word

/-!
# Solving in Process

A backend that evaluates queries with a solver in the same process. It answers
to the name `z3` only and ignores all options. Its solver may refuse a query,
which is a reply, or fail altogether, which is not.

## Main definitions

* `Evaluation`: How the evaluation of a query ends.
* `Evaluator`: The backend, and whether it timed an evaluation yet.
* `Evaluator.objection`: Why a request is turned down, if it is.
* `Evaluator.solve`: The reply to a request, and the query that reached the
  solver for it.
* `Evaluator.backend`: The evaluator as a backend.
-/

namespace SmtSession

/-- How the evaluation of a query ends. -/
inductive Evaluation where
  /-- The solver prints something. -/
  | printed (text : String)
  /-- The solver refuses the query. -/
  | refused (reason : String)
  /-- The solver fails. -/
  | failed (reason : String)
deriving Repr, DecidableEq

/-- What an evaluation amounts to. -/
def Evaluation.reply : Evaluation → Except Fault Reply
  | .printed text => .ok (.output text)
  | .refused reason => .ok (.failure reason)
  | .failed reason => .error (.foreign reason)

/-- A solver in the same process, and whether the duration of an evaluation was
    ever recorded. -/
structure Evaluator where
  timed : Bool
deriving Repr, DecidableEq

namespace Evaluator

/-- An evaluator that has not evaluated anything. -/
def idle : Evaluator := ⟨false⟩

/-- The words of the command line in a label. -/
def commandWords (label : String) : Except Fault (List String) := do
  let command ← commandOf label
  orFault .words (Text.words command)

/-- The reason for which a request is turned down before it reaches the solver,
    if there is one. -/
def objection (request : Request) : Option String :=
  match commandWords request.label with
  | .error fault => some fault.message
  | .ok command =>
    if command.head? = some "z3" then none
    else some ("Not a z3 backend: " ++ Text.joined " " command)

/-- The reply to a request when the evaluation of its query ends in a given
    way, the evaluator afterwards, and the query that reached the solver, if
    any. An evaluation is timed even when the solver fails. -/
def solve (e : Evaluator) (evaluation : Evaluation) (request : Request) :
    Except Fault Reply × Evaluator × Option String :=
  match objection request with
  | some reason => (.ok (.failure reason), e, none)
  | none => (evaluation.reply, ⟨true⟩, some request.query)

/-- The evaluator as a backend whose evaluations all end in the same way. Its
    state is the evaluator and the queries that reached the solver so far. -/
def backend (evaluation : Evaluation) : Backend (Evaluator × List String) :=
  fun request (e, queries) =>
    let (reply, e, reached) := e.solve evaluation request
    (reply, e, queries ++ reached.toList)

end Evaluator

end SmtSession
