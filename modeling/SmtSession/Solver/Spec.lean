import SmtSession.Fault
import SmtSession.Text.PathName

/-!
# Solvers

The executables that backends are run as. A command line starts with the name
of a solver; the known names stand for an executable with the options that
make it read scripts, and any other name is run as it is given. The remaining
words are further options.

## Main definitions

* `Solver`: An executable with its fixed options.
* `Solver.named`: The solver that a name stands for.
* `Solver.ofCommand`: The solver and the further options in a command line.
* `Solver.commandLine`: The command line that runs a solver on a file.
-/

namespace SmtSession

/-- An executable and the options it is always run with. -/
structure Solver where
  name : String
  executable : String
  options : List String
deriving Repr, DecidableEq

namespace Solver

/-- The executable and its fixed options. -/
def argv (s : Solver) : List String := s.executable :: s.options

/-- The solvers that are known by name. -/
def known : List Solver :=
  [⟨"z3", "z3", ["-smt2"]⟩,
   ⟨"cvc4", "cvc4", ["--lang", "smt2", "--produce-models"]⟩,
   ⟨"cvc5", "cvc5", ["--lang", "smt2", "--produce-models"]⟩,
   ⟨"yices", "yices-smt2", []⟩,
   ⟨"boolector", "boolector", ["--smt2"]⟩,
   ⟨"bitwuzla", "bitwuzla", ["--smt2"]⟩]

/-- The solver that is run as it is given: called by the last step of its path,
    or by the whole path when that has no steps. -/
def ofPath (path : String) : Solver :=
  let name := Text.pathName path
  ⟨if name = "" then path else name, path, []⟩

/-- The solver that a name stands for. -/
def named (name : String) : Solver :=
  (known.find? (·.name = name)).getD (ofPath name)

/-- The solver and the further options in a command line. -/
def ofCommand (command : String) : Except Fault (Solver × List String) := do
  match ← orFault .words (Text.words command) with
  | [] => throw .emptyCommand
  | name :: options => return (named name, options)

/-- The command line that runs a solver on a file, with further options. -/
def commandLine (s : Solver) (options : List String) (file : String) : List String :=
  s.argv ++ options ++ [Text.normalPath file]

end Solver

end SmtSession
