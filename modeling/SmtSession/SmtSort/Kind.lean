import SmtSession.Fault

/-!
# Kinds of Sorts

What sets sorts apart at the top. A bare sort has no kind, and asking for it
is a fault; a missing sort is not a sort to ask about, and has no kind either.

## Main definitions

* `SortKind`: The kinds.
* `SmtSort.kind`: The kind of a sort.
* `SmtSort.ofMembers`: A tuple sort from its names and sorts.
-/

namespace SmtSession

/-- The kinds of sorts. -/
inductive SortKind where
  | int
  | bool
  | bitVec
  | array
  | tuple
  | function
  | placeholder
deriving Repr, DecidableEq

/-- The word for a kind. -/
def SortKind.word : SortKind → String
  | .int => "int"
  | .bool => "bool"
  | .bitVec => "bitvector"
  | .array => "array"
  | .tuple => "tuple"
  | .function => "function"
  | .placeholder => "sort"

namespace SmtSort

/-- The kind of a sort, nothing when there is no sort. -/
def kind : SmtSort → Except Fault (Option SortKind)
  | .missing => .ok none
  | .bare _ => .error .kindless
  | .int _ _ => .ok (some .int)
  | .bool _ => .ok (some .bool)
  | .bitVec _ _ => .ok (some .bitVec)
  | .array _ _ _ => .ok (some .array)
  | .tuple _ _ _ => .ok (some .tuple)
  | .function _ _ _ => .ok (some .function)
  | .placeholder _ _ => .ok (some .placeholder)

/-- A tuple sort with the given member names and component sorts, which have
    to be equal in number. -/
def ofMembers (stamp : Nat) (name : String) (members : List String)
    (components : List SmtSort) : Except Fault SmtSort :=
  if members.length = components.length then .ok (.tuple stamp name (members.zip components))
  else .error (.tupleShape name members.length components.length)

end SmtSort

end SmtSession
