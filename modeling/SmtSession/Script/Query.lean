import SmtSession.Script.TermText
import SmtSession.SmtSort.Kind

/-!
# Queries

A query is the script followed by a tail that asks for an answer. Terms to be
evaluated are bound to constants of a reserved name before the check, because
solvers report values of constants more reliably than values of terms; the
constants are then asked for in order.

The script is copied before the tail is rendered. A term that introduces
datatypes while the tail is rendered therefore adds them to the script, but
not to the query.

## Main definitions

* `evaluationSort`: How the sort of a term to be evaluated is declared.
* `queryTail`: The commands that ask for an answer and for values.
* `query`: The text that a check sends.
-/

namespace SmtSession

/-- The constant that the term at a position is bound to. -/
def evaluationName (position : Nat) : String := "EVALEXPR_" ++ numeral position

/-- How the sort of a term to be evaluated is declared: integers and truth
    values only. -/
def evaluationSort (sort : SmtSort) : Except Fault String := do
  match ← sort.kind with
  | some .int => return "Int"
  | some .bool => return "Bool"
  | _ => throw .evaluationSort

/-- The two lines that bind a term to its constant. -/
def bindingText (position : Nat) (sort term : String) : String :=
  "(declare-const " ++ evaluationName position ++ " " ++ sort ++ ")\n(assert (= "
    ++ evaluationName position ++ " " ++ term ++ "))\n"

/-- The lines that bind terms to the constants from a position on. -/
def bindingTexts : Nat → List Term → Rendering String
  | _, [] => pure ""
  | position, term :: terms => do
    let sort ← Rendering.lift (evaluationSort term.sort)
    let text ← termText term
    let rest ← bindingTexts (position + 1) terms
    return bindingText position sort text ++ rest

/-- The names of constants, each followed by a space. -/
def evaluationNames (positions : List Nat) : String :=
  String.join (positions.map fun position => evaluationName position ++ " ")

/-- The commands that ask for an answer, and for the values of terms if there
    are any. -/
def queryTail (terms : List Term) : Rendering String :=
  if terms.isEmpty then pure "(check-sat)\n"
  else do
    let bindings ← bindingTexts 0 terms
    return bindings ++ "(check-sat)\n(get-value (" ++ evaluationNames (List.range terms.length)
      ++ "))\n"

/-- The text that a check sends: the script as it was, and the tail. -/
def query (terms : List Term) : Rendering String := do
  let script := (← get).text
  let tail ← queryTail terms
  return script ++ tail

end SmtSession
