import SmtSession.SmtSort
import SmtSession.Number.Integer

/-!
# Terms

A term is a name applied to a list of terms, with a sort where one is known.
A term without arguments is a leaf: a literal or a declared symbol, written
as its name. Five operator names have a rendering of their own; every other
name stands for itself.

The width of a conversion to bit vectors and the index of a tuple selection
are arguments like any other: leaves whose name is the number. Likewise the
sort of a constant array hides in the sort of its first argument, a leaf that
stands for that sort.

## Main definitions

* `Term`: Terms.
* `Operator`: What the name of a term with arguments means.
* `Literal`: The constants that a leaf can spell.
* `Term.literal`, `Term.intToBitVec`, `Term.bitVecToInt`, `Term.constArray`,
  `Term.tupleGet`, `Term.tupleMake`: Builders.

## Theorems

* `Term.beq_iff_eq`: Sameness of terms is decided by a test.
* `Term.induction`: Induction over terms and their arguments.
-/

namespace SmtSession

/-- A name applied to arguments; the sort is missing where none is known. -/
structure Term where
  name : String
  args : List Term
  sort : SmtSort
deriving Inhabited, Repr

/-- What the name of a term with arguments means. -/
inductive Operator where
  /-- Conversion of an integer to a bit vector. -/
  | intToBitVec
  /-- Conversion of a bit vector to an integer. -/
  | bitVecToInt
  /-- The array with one value at every index. -/
  | constArray
  /-- Selection of a tuple's component. -/
  | tupleGet
  /-- A tuple made from its components. -/
  | tupleMake
  /-- A symbol that stands for itself. -/
  | symbol
deriving Repr, DecidableEq

/-- The operator that a name means. -/
def Operator.ofName (name : String) : Operator :=
  if name = "int2bv" then .intToBitVec
  else if name = "bv2int" then .bitVecToInt
  else if name = "const_array" then .constArray
  else if name = "tuple_get" then .tupleGet
  else if name = "tuple_constructor" then .tupleMake
  else .symbol

/-- The constants that a leaf can spell. -/
inductive Literal where
  | bool (value : Bool)
  | int (value : Int)
  | text (value : String)
deriving Repr, DecidableEq

/-- The spelling of a constant. -/
def Literal.spelling : Literal → String
  | .bool value => if value then "true" else "false"
  | .int value => decimalText value
  | .text value => value

namespace Term

/-- A leaf that spells a constant. -/
def literal (value : Literal) (sort : SmtSort) : Term :=
  ⟨value.spelling, [], sort⟩

/-- A leaf that names a declared symbol. -/
def symbol (name : String) (sort : SmtSort) : Term :=
  ⟨name, [], sort⟩

/-- The bit vector of a width that an integer converts to. Its sort is a new
    instance with the given stamp. -/
def intToBitVec (stamp : Nat) (value : Term) (width : Int) : Term :=
  ⟨"int2bv", [value, literal (.int width) .missing], .bitVec stamp width⟩

/-- The integer that a bit vector converts to. -/
def bitVecToInt (value : Term) (sort : SmtSort) : Term :=
  ⟨"bv2int", [value], sort⟩

/-- The array of a sort that holds one value at every index. The stamp is that
    of the sort of the leaf that stands for the array sort. -/
def constArray (stamp : Nat) (arraySort : SmtSort) (fill : Term) : Term :=
  ⟨"const_array", [⟨"array_sort", [], .placeholder stamp arraySort⟩, fill], arraySort⟩

/-- The sort of a component of a tuple, missing when the sort is no tuple sort
    or the index is out of range. -/
def componentSort (sort : SmtSort) (index : Int) : SmtSort :=
  match sort with
  | .tuple _ _ fields =>
    if index < 0 then .missing else ((SmtSort.components fields)[index.toNat]?).getD .missing
  | _ => .missing

/-- The component of a tuple at an index. -/
def tupleGet (tuple : Term) (index : Int) : Term :=
  ⟨"tuple_get", [tuple, literal (.int index) .missing], componentSort tuple.sort index⟩

/-- The tuple of a sort with the given components. -/
def tupleMake (tupleSort : SmtSort) (args : List Term) : Term :=
  ⟨"tuple_constructor", args, tupleSort⟩

mutual

/-- Whether two terms have the same name, arguments and sort. -/
def beq : Term → Term → Bool
  | ⟨m, ss, p⟩, ⟨n, ts, q⟩ => m == n && beqList ss ts && p == q

/-- Whether two lists of terms are the same. -/
def beqList : List Term → List Term → Bool
  | [], [] => true
  | s :: ss, t :: ts => beq s t && beqList ss ts
  | _, _ => false

end

mutual

theorem beq_iff_eq : ∀ s t : Term, beq s t = true ↔ s = t
  | ⟨m, ss, p⟩, ⟨n, ts, q⟩ => by simp [beq, beqList_iff_eq ss, and_assoc]

theorem beqList_iff_eq : ∀ ss ts : List Term, beqList ss ts = true ↔ ss = ts
  | [], ts => by cases ts <;> simp [beqList]
  | s :: ss, ts => by cases ts <;> simp [beqList, beq_iff_eq s, beqList_iff_eq ss]

end

instance : DecidableEq Term := fun s t => decidable_of_iff _ (beq_iff_eq s t)

/-- Induction over terms, with the statement assumed for every argument. -/
@[induction_eliminator] theorem induction {motive : Term → Prop}
    (node : ∀ name args sort, (∀ a ∈ args, motive a) → motive ⟨name, args, sort⟩)
    (t : Term) : motive t :=
  Term.rec (motive_1 := motive) (motive_2 := fun ts => ∀ t ∈ ts, motive t)
    node (by simp) (by intro t ts ht hts; simpa using ⟨ht, hts⟩) t

end Term

end SmtSession
