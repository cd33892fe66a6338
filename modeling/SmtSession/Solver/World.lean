import SmtSession.Number.Binary64
import SmtSession.Solver.Spec

/-!
# The World Around

What running a solver depends on: which executables there are, how it ends when
somebody tries to run them, and whether there is room for the file that holds
the query. None of it is decided here. A world is what an observer would see,
and two runs in the same world come out the same.

## Main definitions

* `RunEnd`: How an attempt to run an executable ends.
* `Scratch`: What becomes of the file that holds a query.
* `World`: The executables, the ends of their runs, and the room for files.
* `World.offers`: Whether an executable can be run.
* `World.run`: How a run of an executable ends.
* `TimeLimit`: How long a run may take, in seconds.
-/

namespace SmtSession

/-- How an attempt to run an executable ends. -/
inductive RunEnd where
  /-- The process ends by itself. -/
  | finished (output errors : String) (code : Int)
  /-- The process is stopped because its time is up. -/
  | timedOut
  /-- The system refuses to start the process. -/
  | refused (reason : String)
  /-- The attempt breaks off for a reason that is not the system's: an argument
      holds a null character, so that nothing is started, or the output of
      the process is no text. -/
  | broken (reason : String)
deriving Repr, DecidableEq

/-- What becomes of the file that holds a query. -/
inductive Scratch where
  /-- It is written, and it is removed after the run. -/
  | usable
  /-- It cannot be written. -/
  | unwritable (reason : String)
  /-- It is written, but it cannot be removed. -/
  | unremovable (reason : String)
deriving Repr, DecidableEq

/-- Whether the file can be written. -/
def Scratch.canWrite : Scratch → Bool
  | .unwritable _ => false
  | .usable | .unremovable _ => true

/-- The executables, the ends of their runs, and the room for files. -/
structure World where
  /-- The names of the executables on the search path. -/
  onPath : List String
  /-- The files there are, and whether they can be executed. -/
  files : List (String × Bool)
  /-- The ends of the runs of executables. -/
  runs : List (String × RunEnd)
  /-- What becomes of query files. -/
  scratch : Scratch
deriving Repr

namespace World

/-- Whether an executable can be run. One that is given with a slash is a file,
    any other is looked up on the search path. -/
def offers (w : World) (executable : String) : Bool :=
  if executable.toList.contains '/' then (w.files.lookup executable).getD false
  else w.onPath.contains executable

/-- How a run of an executable ends; without output and without complaint when
    the world does not say. -/
def run (w : World) (executable : String) : RunEnd :=
  (w.runs.lookup executable).getD (.finished "" "" 0)

end World

/-- How long a run may take, in seconds. -/
inductive TimeLimit where
  | whole (seconds : Int)
  | decimal (seconds : Binary64)
deriving Repr, DecidableEq

namespace TimeLimit

/-- The text of a limit. -/
def text : TimeLimit → String
  | whole seconds => decimalText seconds
  | decimal seconds => seconds.text

/-- The limit of a setting, where an empty text sets nothing. -/
def ofSetting : Option String → Except Fault (Option TimeLimit)
  | none => .ok none
  | some text =>
    if text = "" then .ok none
    else match readBinary64 text with
      | some seconds => .ok (some (.decimal seconds))
      | none => .error (.notDecimal text)

end TimeLimit

end SmtSession
