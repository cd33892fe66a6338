import SmtSession.Fault

/-!
# S-Expressions

The trees that solvers write their output as: an atom is a text, a list is a
list of trees. The canonical text of a tree has single spaces and no comments.
Nothing is quoted in it, so only trees with plain atoms are read back.

## Main definitions

* `SExpr`: Atoms and lists.
* `SExpr.text`: The canonical text of a tree.
* `SExpr.isAtom`, `SExpr.asAtom`, `SExpr.asList`: The two forms of a tree.

## Theorems

* `SExpr.beq_iff_eq`: Sameness of trees is decided by a test.
* `SExpr.induction`: Induction over trees and their items.
-/

namespace SmtSession

/-- A tree: an atom or a list of trees. -/
inductive SExpr where
  | atom (text : String)
  | list (items : List SExpr)
deriving Inhabited, Repr

namespace SExpr

mutual

/-- Whether two trees are the same. -/
def beq : SExpr → SExpr → Bool
  | .atom s, .atom t => s == t
  | .list ss, .list ts => beqList ss ts
  | _, _ => false

/-- Whether two lists of trees are the same. -/
def beqList : List SExpr → List SExpr → Bool
  | [], [] => true
  | s :: ss, t :: ts => beq s t && beqList ss ts
  | _, _ => false

end

mutual

theorem beq_iff_eq : ∀ s t : SExpr, beq s t = true ↔ s = t
  | .atom s, t => by cases t <;> simp [beq]
  | .list ss, t => by cases t <;> simp [beq, beqList_iff_eq ss]

theorem beqList_iff_eq : ∀ ss ts : List SExpr, beqList ss ts = true ↔ ss = ts
  | [], ts => by cases ts <;> simp [beqList]
  | s :: ss, ts => by cases ts <;> simp [beqList, beq_iff_eq s, beqList_iff_eq ss]

end

instance : DecidableEq SExpr := fun s t => decidable_of_iff _ (beq_iff_eq s t)

/-- Induction over trees, with the statement assumed for every item of a
    list. -/
@[induction_eliminator] theorem induction {motive : SExpr → Prop} (atom : ∀ s, motive (.atom s))
    (list : ∀ items, (∀ t ∈ items, motive t) → motive (.list items)) (t : SExpr) : motive t :=
  SExpr.rec (motive_1 := motive) (motive_2 := fun ts => ∀ t ∈ ts, motive t)
    atom list (by simp) (by intro t ts ht hts; simpa using ⟨ht, hts⟩) t

mutual

/-- The canonical text of a tree. -/
def text : SExpr → String
  | .atom s => s
  | .list items => "(" ++ spaced items ++ ")"

/-- The canonical texts of trees with single spaces between them. -/
def spaced : List SExpr → String
  | [] => ""
  | [t] => text t
  | t :: ts => text t ++ " " ++ spaced ts

end

/-- Whether a tree is an atom. -/
def isAtom : SExpr → Bool
  | .atom _ => true
  | .list _ => false

/-- The text of an atom. -/
def asAtom : SExpr → Except Fault String
  | .atom s => .ok s
  | .list _ => .error .notAtom

/-- The items of a list. -/
def asList : SExpr → Except Fault (List SExpr)
  | .atom _ => .error .notList
  | .list items => .ok items

end SExpr

end SmtSession
