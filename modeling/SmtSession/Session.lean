import SmtSession.Script.Declare
import SmtSession.Script.Query
import SmtSession.Solver.Choice
import SmtSession.Solver.Consult

/-!
# Sessions

A session is a script under construction together with the backends that its
queries are put to. It keeps the queries that no backend could handle; they
outlast every change of the script.

## Main definitions

* `Session`: A script, the backends to consult, and the unhandled queries.
* `Session.start`, `Session.create`: A new session, with a limit that can be
  written or with one that has to be checked.
* `Session.onScript`: An operation of the script, as one of the session.
* `Session.Report`: What a check finds out.
* `Session.check`: Build the query, consult the backends and log the failure.
-/

namespace SmtSession

/-- A script, the command lines of the backends to consult, and the queries for
    which none of them gave a usable answer. -/
structure Session where
  script : Script
  backends : List String
  unhandled : List String
deriving Repr

namespace Session

/-- A new session. -/
def start (timeout : Option WritableInt) (backends : List String) : Session :=
  ⟨.start timeout, backends, []⟩

/-- A new session whose limit for solvers may be too long to be written. -/
def create (timeout : Option Int) (backends : List String) : Except Fault Session := do
  let timeout ← timeout.mapM fun limit => orFault .numeral (WritableInt.ofInt limit)
  return start timeout backends

/-- An operation of the script, as one of the session. -/
def onScript {α : Type} (operation : Rendering α) : EStateM Fault Session α := fun s =>
  match operation s.script with
  | .ok value script => .ok value { s with script }
  | .error fault script => .error fault { s with script }

/-- Choose other backends. -/
def enable (backends : List String) : EStateM Fault Session Unit :=
  modify ({ · with backends })

/-- What a check finds out: the standing of the consultation, and the requests
    that were made for it. -/
structure Report where
  standing : Standing
  requests : List Request
deriving Repr, DecidableEq

/-- Log a query when its verdict is that no backend handled it. -/
def log (query : String) (verdict : Verdict) (s : Session) : Session :=
  if verdict = .error then { s with unhandled := s.unhandled ++ [query] } else s

/-- Build the query for the script and some terms, consult the backends, and
    log the query when none of them could handle it. The state of the backends
    is returned beside the report. A query that cannot be built reaches no
    backend. -/
def check {σ : Type} (backend : Backend σ) (terms : List Term) (world : σ) :
    EStateM Fault Session (Report × σ) := do
  let text ← onScript (query terms)
  let ((standing, requests), world) := consult backend text (← get).backends .initial world
  modify (log text standing.verdict)
  return (⟨standing, requests⟩, world)

end Session

end SmtSession
