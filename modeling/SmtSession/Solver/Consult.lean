import SmtSession.ModelValue
import SmtSession.Solver.Label

/-!
# Consulting Backends

A query is put to one backend after the other, and the replies are weighed as
they come. The first definite verdict stands, with the values reported along
with it. A later definite verdict that differs makes the standing conflicting
and ends the consultation. A backend that gave up counts only as long as no
usable reply came in, and a backend that fails or breaks down does not count.

## Main definitions

* `Standing`: The verdict and the values so far.
* `Standing.weigh`: A standing after one more reply.
* `Weighed`: Whether the consultation goes on.
* `ask`: The reply of a backend that may break down.
* `consult`: The standing after a list of backends, and the requests made.
-/

namespace SmtSession

/-- The verdict and the values that the replies so far amount to. -/
structure Standing where
  verdict : Verdict
  values : List String
deriving Repr, DecidableEq

/-- The standing before any reply. -/
def Standing.initial : Standing := ⟨.error, []⟩

/-- A standing that may change with further replies, or that is settled. -/
inductive Weighed where
  | undecided (standing : Standing)
  | settled (standing : Standing)
deriving Repr, DecidableEq

/-- A standing after one more output. -/
def Standing.weighOutput (s : Standing) (output : String) : Weighed :=
  let verdict := Verdict.ofOutput output
  if verdict.isDefinite then
    if !s.verdict.isDefinite then
      .undecided ⟨verdict, if verdict = .satisfiable then reportedValues output else s.values⟩
    else if s.verdict ≠ verdict then .settled { s with verdict := .conflicting }
    else .undecided s
  else if verdict = .unknown ∧ s.verdict = .error then .undecided { s with verdict }
  else .undecided s

/-- A standing after one more reply. -/
def Standing.weigh (s : Standing) : Reply → Weighed
  | .output text => s.weighOutput text
  | .failure _ => .undecided s

/-- The reply of a backend, which is a failure when the backend breaks down. -/
def ask {σ : Type} (backend : Backend σ) (request : Request) : StateM σ Reply := do
  match ← backend request with
  | .ok reply => return reply
  | .error fault => return .failure fault.message

/-- Put a query to backends in order, starting from a standing. The answer is
    the final standing and the requests that were made. -/
def consult {σ : Type} (backend : Backend σ) (query : String) :
    List String → Standing → StateM σ (Standing × List Request)
  | [], standing => pure (standing, [])
  | command :: commands, standing => do
    let request : Request := ⟨labelFor command, query⟩
    let reply ← ask backend request
    match standing.weigh reply with
    | .settled final => return (final, [request])
    | .undecided standing =>
      let (final, requests) ← consult backend query commands standing
      return (final, request :: requests)

end SmtSession
