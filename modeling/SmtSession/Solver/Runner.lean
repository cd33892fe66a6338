import SmtSession.Solver.Label
import SmtSession.Solver.World

/-!
# Running Solvers

A backend that runs the solver named in the label of a request. The query is
handed over as a file. Most of what goes wrong on the way is a reply: a label
without the tag, a command line that cannot be cut into words, an executable
that is not there, a run that the system does not start, that does not end in
time, or that ends with an error code and without output.

The rest is not caught. No reply comes back when the file cannot be written or
removed, when the attempt to run the solver breaks off for a reason of its own,
and when an error code is too long for the text that would report it.

## Main definitions

* `Launch`: An attempt to start a process.
* `Runner`: The limit for runs, and whether one was timed yet.
* `replyOf`: What the end of a run amounts to.
* `Scratch.settle`: What is left of that when the file is to be removed.
* `Runner.plan`: The solver and the options for a request.
* `Runner.solve`: What comes of a request, and the attempt that was made for it.
* `Runner.backend`: The runner as a backend in a fixed world.
-/

namespace SmtSession

/-- An attempt to start a process: its command line, the text of the query file,
    and the limit. -/
structure Launch where
  argv : List String
  query : String
  limit : Option TimeLimit
deriving Repr, DecidableEq

/-- What the end of a run amounts to. A run that fails without output is
    reported by its complaint, or by its code when it has none. -/
def replyOf (solver : String) : RunEnd → Except Fault Reply
  | .timedOut => .ok (.failure ("Solver " ++ solver ++ " timed out"))
  | .refused reason => .ok (.failure reason)
  | .broken reason => .error (.foreign reason)
  | .finished output errors code =>
    if code ≠ 0 ∧ output = "" then
      if errors = "" then do
        let number ← orFault .numeral (writeInteger code)
        return .failure (solver ++ " exited with " ++ number)
      else .ok (.failure errors)
    else .ok (.output output)

/-- What comes of a run once its query file is accounted for. A file that cannot
    be removed takes the place of whatever the run came to. -/
def Scratch.settle (result : Except Fault Reply) : Scratch → Except Fault Reply
  | .usable => result
  | .unwritable reason | .unremovable reason => .error (.foreign reason)

/-- The limit for runs, and whether the duration of a run was ever recorded. -/
structure Runner where
  limit : Option TimeLimit
  timed : Bool
deriving Repr, DecidableEq

namespace Runner

/-- The name of the file that holds the query. -/
def queryFile : String := "query.smt2"

/-- A runner that has not run anything. -/
def idle (limit : Option TimeLimit) : Runner := ⟨limit, false⟩

/-- A runner with a given limit, or else with the limit of a setting. -/
def ofSetting (limit : Option TimeLimit) (setting : Option String) : Except Fault Runner :=
  match limit with
  | some limit => .ok (idle (some limit))
  | none => (TimeLimit.ofSetting setting).map idle

/-- The solver and the further options for a request. -/
def plan (request : Request) : Except Fault (Solver × List String) := do
  let command ← commandOf request.label
  Solver.ofCommand command

/-- What comes of a request, the runner afterwards, and the attempt to start a
    process, if one was made. An attempt is timed however it ends. -/
def solve (w : World) (r : Runner) (request : Request) :
    Except Fault Reply × Runner × Option Launch :=
  match plan request with
  | .error fault => (.ok (.failure fault.message), r, none)
  | .ok (solver, options) =>
    if w.offers solver.executable then
      let result := w.scratch.settle (replyOf solver.name (w.run solver.executable))
      if w.scratch.canWrite then
        (result, { r with timed := true },
          some ⟨solver.commandLine options queryFile, request.query, r.limit⟩)
      else (result, r, none)
    else (.ok (.failure ("Solver not found: " ++ solver.name)), r, none)

/-- The runner as a backend in a fixed world. Its state is the runner and the
    attempts made so far. -/
def backend (w : World) : Backend (Runner × List Launch) := fun request (r, launches) =>
  let (result, r, launch) := r.solve w request
  (result, r, launches ++ launch.toList)

end Runner

end SmtSession
