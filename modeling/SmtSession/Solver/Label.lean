import SmtSession.Solver.Reply

/-!
# Requests

A backend is asked by a request: a label that names the backend and the text
of the query. The label is the tag that all queries carry, a space, and the
command line of the backend.

## Main definitions

* `Request`: A label and a query.
* `labelFor`: The label that names a backend.
* `commandOf`: The command line in a label.
* `Backend`: Something that answers requests.

## Theorems

* `commandOf_labelFor`: A label names the backend it was made for.
-/

namespace SmtSession

/-- What a backend is asked: the label that names it, and the query. -/
structure Request where
  label : String
  query : String
deriving Repr, DecidableEq

/-- What every label starts with. -/
def labelTag : String := "smt-query "

/-- The label that names a backend. -/
def labelFor (command : String) : String := labelTag ++ command

/-- The command line in a label, which has to carry the tag. -/
def commandOf (label : String) : Except Fault String :=
  if labelTag.toList.isPrefixOf label.toList then
    .ok (String.ofList (label.toList.drop labelTag.toList.length))
  else .error (.notLabel label)

theorem commandOf_labelFor (command : String) : commandOf (labelFor command) = .ok command := by
  simp [commandOf, labelFor, List.isPrefixOf_iff_prefix]

/-- Something that answers requests. It may break down instead of replying, and
    what it does may depend on all that it was asked before. -/
abbrev Backend (σ : Type) := Request → StateM σ (Except Fault Reply)

end SmtSession
