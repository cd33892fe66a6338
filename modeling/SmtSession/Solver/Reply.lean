import SmtSession.Fault

/-!
# Replies and Verdicts

What a backend says about a query, and what that means. A reply is the output
of a solver, or the reason why there is none. The output is classified by its
first characters alone: solvers follow a verdict with values, warnings and
models in forms of their own.

## Main definitions

* `Reply`: The output of a backend, or why there is none.
* `Verdict`: What is known about a script.
* `Verdict.ofOutput`: The verdict that an output starts with.
* `Verdict.isDefinite`: Whether a verdict settles the question.
-/

namespace SmtSession

/-- What a backend says about a query. -/
inductive Reply where
  /-- The output of the solver. -/
  | output (text : String)
  /-- There is no output, for this reason. -/
  | failure (reason : String)
deriving Repr, DecidableEq

/-- Whether there is an output. -/
def Reply.isOutput : Reply → Bool
  | .output _ => true
  | .failure _ => false

/-- The output, or the reason why there is none. -/
def Reply.content : Reply → String
  | .output text => text
  | .failure reason => reason

/-- How a reply is shown. -/
def Reply.display : Reply → String
  | .output text => text
  | .failure reason => "Query failed: " ++ reason

/-- What is known about the satisfiability of a script. -/
inductive Verdict where
  | satisfiable
  | unsatisfiable
  /-- A solver gave up. -/
  | unknown
  /-- Two solvers contradict each other. -/
  | conflicting
  /-- No solver gave a usable answer. -/
  | error
deriving Repr, DecidableEq

namespace Verdict

/-- The verdicts. -/
def all : List Verdict := [.satisfiable, .unsatisfiable, .unknown, .conflicting, .error]

/-- The name of a verdict. -/
def name : Verdict → String
  | .satisfiable => "SATISFIABLE"
  | .unsatisfiable => "UNSATISFIABLE"
  | .unknown => "UNKNOWN"
  | .conflicting => "CONFLICTING"
  | .error => "ERROR"

/-- The word for a verdict. -/
def word : Verdict → String
  | .satisfiable => "sat"
  | .unsatisfiable => "unsat"
  | .unknown => "unknown"
  | .conflicting => "conflicting"
  | .error => "error"

/-- The verdict with a given word. -/
def ofWord (word : String) : Except Fault Verdict :=
  match all.find? (·.word = word) with
  | some verdict => .ok verdict
  | none => .error (.unknownVerdict word)

/-- The verdict that an output starts with; an output that starts with none is
    an error. -/
def ofOutput (text : String) : Verdict :=
  let cs := text.toList
  if satisfiable.word.toList.isPrefixOf cs then satisfiable
  else if unsatisfiable.word.toList.isPrefixOf cs then unsatisfiable
  else if unknown.word.toList.isPrefixOf cs then unknown
  else error

/-- Whether a verdict settles the question. -/
def isDefinite : Verdict → Bool
  | .satisfiable | .unsatisfiable => true
  | _ => false

theorem ofWord_word (v : Verdict) : ofWord v.word = .ok v := by
  cases v <;> rfl

end Verdict

end SmtSession
