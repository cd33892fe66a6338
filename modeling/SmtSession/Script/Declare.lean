import SmtSession.Script.TermText

/-!
# Declarations and Assertions

The commands that make up a script, and the scopes they are written in. A
symbol is declared once: a second declaration of the same name writes
nothing, whatever its sort. Constants and functions share one table of names.

## Main definitions

* `declareConstant`, `declareFunction`: Declare a symbol.
* `assertTerm`: Assert a term.
* `writeLine`, `openScope`, `closeScope`, `startOver`: The other commands.
-/

namespace SmtSession

/-- The line that declares a symbol, from the texts of its domain and of its
    range. -/
def declarationText (name domain codomain : String) : String :=
  "(declare-fun " ++ bars name ++ " " ++ domain ++ " " ++ codomain ++ ")"

/-- Declare a function. The signature is rendered before the symbol is entered
    into the table. -/
def declareFunction (name : String) (sort : SmtSort) : Rendering Unit :=
  match sort with
  | .function i domain codomain => do
    if (← get).declares name then
      return ()
    let parameters ← signature domain
    let result ← sortName codomain
    modify fun s => (s.declare name (.function i domain codomain)).write
      (declarationText name parameters result)
  | _ => throw (.notFunctionSort name)

/-- Declare a constant, or a function when the sort is one of functions. A
    constant is entered into the table before its sort is rendered. -/
def declareConstant (name : String) (sort : SmtSort) : Rendering Unit :=
  match sort with
  | .missing => throw (.missingSort name)
  | .function i domain codomain => declareFunction name (.function i domain codomain)
  | sort => do
    if (← get).declares name then
      return ()
    modify (·.declare name sort)
    let text ← sortName sort
    modify (·.write (declarationText name "()" text))

/-- The line that asserts a term. -/
def assertionText (term : String) : String := "(assert " ++ term ++ ")"

/-- Assert a term. -/
def assertTerm (term : Term) : Rendering Unit := do
  let text ← termText term
  modify (·.write (assertionText text))

/-- Write a line as it is. -/
def writeLine (line : String) : Rendering Unit :=
  modify (·.write line)

/-- Open a scope. -/
def openScope : Rendering Unit :=
  modify fun s => { s with scopes := s.scopes.push }

/-- Close the innermost scope. -/
def closeScope : Rendering Unit := do
  match (← get).scopes.pop? with
  | some scopes => modify ({ · with scopes })
  | none => throw .outermostScope

/-- Start the script over, with the same limit for solvers. -/
def startOver : Rendering Unit :=
  modify fun s => .start s.timeout

end SmtSession
