import SmtSession.Fault
import SmtSession.Text.Blank
import SmtSession.Text.Pieces

/-!
# Choosing Solvers

Which of the known solvers are consulted. A choice is written as `all`,
`none`, or a list of names with commas between them, with blanks around the
whole and around each name. The words `all` and `none` stand alone: inside a
list they are unknown names.

## Main definitions

* `Choice`: Which solvers are consulted.
* `Choice.read`: The choice that a text spells.
* `Choice.commands`: The command lines of the chosen solvers, in the order in
  which they are consulted.
-/

namespace SmtSession

/-- Which solvers are consulted. -/
structure Choice where
  z3 : Bool
  cvc4 : Bool
deriving Repr, DecidableEq

namespace Choice

/-- Every solver. -/
def all : Choice := ⟨true, true⟩

/-- No solver. -/
def none : Choice := ⟨false, false⟩

/-- The first solver alone. -/
def onlyZ3 : Choice := ⟨true, false⟩

/-- The second solver alone. -/
def onlyCvc4 : Choice := ⟨false, true⟩

/-- The solvers of either choice. -/
def union (a b : Choice) : Choice := ⟨a.z3 || b.z3, a.cvc4 || b.cvc4⟩

/-- The solvers of both choices. -/
def inter (a b : Choice) : Choice := ⟨a.z3 && b.z3, a.cvc4 && b.cvc4⟩

/-- The choice of the solver with a given name. -/
def ofName (name : String) : Except Fault Choice :=
  if name = "z3" then .ok onlyZ3
  else if name = "cvc4" then .ok onlyCvc4
  else .error (.unknownSolver name)

/-- The solvers that a list of names chooses; the first name that is unknown
    is reported. -/
def ofNames : List String → Except Fault Choice
  | [] => .ok none
  | name :: names => do
    let first ← ofName name
    let others ← ofNames names
    return first.union others

/-- A text without the blanks around it. -/
def stripped (cs : List Char) : String := String.ofList (Text.trim Text.isBlank cs)

/-- The choice that a text spells. -/
def read (text : String) : Except Fault Choice :=
  let body := stripped text.toList
  if body = "all" then .ok all
  else if body = "" ∨ body = "none" then .ok none
  else ofNames ((Text.pieces ',' body.toList).map stripped)

/-- The choice of a setting: every solver when nothing is set. -/
def ofSetting : Option String → Except Fault Choice
  | some text => read text
  | Option.none => .ok all

/-- The command lines of the chosen solvers, in the order in which they are
    consulted. -/
def commands (c : Choice) : List String :=
  (if c.z3 then ["z3 rlimit=1000000"] else []) ++ (if c.cvc4 then ["cvc4"] else [])

end Choice

end SmtSession
