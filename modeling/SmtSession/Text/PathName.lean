import SmtSession.Text.Pieces

/-!
# Names of Paths

A path is cut into steps at its slashes. Empty steps and the step `.` lead
nowhere and are dropped; `..` is a step like any other. The name of a path is
its last step. Its normal form writes the steps with single slashes after the
root: none for a relative path, two when the path starts with exactly two
slashes, one for any other number.

## Main definitions

* `pathSteps`: The steps of a path.
* `pathName`: The last step, empty when there is none.
* `pathRoot`: The slashes that a normal form starts with.
* `normalPath`: The normal form of a path.
-/

namespace SmtSession

namespace Text

/-- The steps of a path, without those that lead nowhere. -/
def pathSteps (path : String) : List String :=
  ((pieces '/' path.toList).map String.ofList).filter fun step => step ≠ "" ∧ step ≠ "."

/-- The last step of a path, or the empty text when it has none. -/
def pathName (path : String) : String :=
  (pathSteps path).getLast?.getD ""

/-- The slashes that the normal form of a path starts with. -/
def pathRoot (path : String) : String :=
  match (path.toList.takeWhile (· = '/')).length with
  | 0 => ""
  | 2 => "//"
  | _ => "/"

/-- The normal form of a path; a path without root and steps is the current
    directory. -/
def normalPath (path : String) : String :=
  match pathRoot path ++ joined "/" (pathSteps path) with
  | "" => "."
  | normal => normal

end Text

end SmtSession
