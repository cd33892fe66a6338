/-!
# Scopes

A script is written into a stack of scopes. Text always goes to the innermost
scope, closing a scope forgets its text, and the script is the text of all
scopes from the outermost to the innermost. There is always an innermost
scope, so writing cannot fail: only closing the last one can.

## Main definitions

* `Scopes`: A non-empty stack of texts.
* `Scopes.push`, `Scopes.pop?`, `Scopes.write`: Open, close and write.
* `Scopes.depth`, `Scopes.text`: How many scopes are open, and their text.

## Theorems

* `Scopes.text_push`, `Scopes.text_write`: What the operations do to the text.
* `Scopes.pop?_push`: Closing undoes opening.
* `Scopes.pop?_eq_none_iff`: Only the outermost scope cannot be closed.
-/

namespace SmtSession

/-- A non-empty stack of texts. The enclosing scopes are listed from the inside
    out. -/
structure Scopes where
  inner : String
  outer : List String
deriving Repr, DecidableEq

namespace Scopes

/-- One empty scope. -/
def empty : Scopes := ⟨"", []⟩

/-- Open a scope. -/
def push (s : Scopes) : Scopes := ⟨"", s.inner :: s.outer⟩

/-- Close the innermost scope and forget its text, unless it is the only one. -/
def pop? (s : Scopes) : Option Scopes :=
  match s.outer with
  | [] => none
  | enclosing :: rest => some ⟨enclosing, rest⟩

/-- Append a line to the innermost scope. -/
def write (line : String) (s : Scopes) : Scopes :=
  { s with inner := s.inner ++ line ++ "\n" }

/-- The number of open scopes. -/
def depth (s : Scopes) : Nat := s.outer.length + 1

/-- The text of the enclosing scopes, from the outermost inwards. -/
def enclosingText : List String → String
  | [] => ""
  | text :: rest => enclosingText rest ++ text

/-- The text of all scopes, from the outermost inwards. -/
def text (s : Scopes) : String := enclosingText s.outer ++ s.inner

@[simp] theorem text_push (s : Scopes) : s.push.text = s.text := by
  simp [push, text, enclosingText]

@[simp] theorem depth_push (s : Scopes) : s.push.depth = s.depth + 1 := rfl

@[simp] theorem text_write (line : String) (s : Scopes) :
    (s.write line).text = s.text ++ line ++ "\n" := by
  simp [write, text, String.append_assoc]

@[simp] theorem depth_write (line : String) (s : Scopes) : (s.write line).depth = s.depth := rfl

@[simp] theorem pop?_push (s : Scopes) : s.push.pop? = some s := rfl

theorem pop?_eq_none_iff (s : Scopes) : s.pop? = none ↔ s.depth = 1 := by
  rcases s with ⟨inner, _ | ⟨enclosing, rest⟩⟩ <;> simp [pop?, depth]

end Scopes

end SmtSession
