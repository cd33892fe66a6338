/-!
# Sorts

The sorts of the terms that a script talks about. A sort is a tree, and each
of its nodes carries a stamp that says which instance it is: two sorts built
separately are different sorts even when they read the same, and one sort
used twice is the same sort in both places. Sameness is equality of values,
stamps included, so a table keyed by sorts needs no assumption about how the
stamps were given out.

Some sorts cannot be written in a script. A sort may be missing, it may be a
bare sort of no kind at all, it may be the sort of a function, or it may be a
placeholder: the sort of a term that stands for a sort. All of them can turn
up wherever a sort can, and it is the rendering that refuses them.

A tuple sort pairs each member name with the sort of that component, so the
two can never differ in number.

## Main definitions

* `SmtSort`: Sorts with their stamps.
* `SmtSort.decEq`: Sameness of sorts is decidable, in time that does not grow with
  the number of paths through shared parts.
* `SmtSort.isMissing`: Whether a sort is the missing one.
* `SmtSort.members`, `SmtSort.components`: The two halves of a tuple's fields.

## Theorems

* `SmtSort.induction`: Induction over sorts and the sorts they list.
-/

namespace SmtSession

/-- The sorts of terms. Every node but the missing sort starts with its
    stamp. -/
inductive SmtSort where
  /-- No sort was given. -/
  | missing
  /-- A sort of no kind. -/
  | bare (stamp : Nat)
  /-- The integers. Whether they count as signed matters to conversions from
      bit vectors only. -/
  | int (stamp : Nat) (isSigned : Bool)
  /-- The truth values. -/
  | bool (stamp : Nat)
  /-- Bit vectors of a width. -/
  | bitVec (stamp : Nat) (width : Int)
  /-- Arrays from one sort to another. -/
  | array (stamp : Nat) (domain range : SmtSort)
  /-- Named tuples, with the name and the sort of each member. -/
  | tuple (stamp : Nat) (name : String) (fields : List (String × SmtSort))
  /-- Functions from a list of sorts to a sort. -/
  | function (stamp : Nat) (domain : List SmtSort) (codomain : SmtSort)
  /-- The sort of a term that stands for a sort. -/
  | placeholder (stamp : Nat) (inner : SmtSort)
deriving Inhabited, Repr

namespace SmtSort

/-- Decide a conjunction, looking at the second part only when the first one
    holds. -/
@[inline] def decideAnd {p q : Prop} (first : Decidable p) (second : Unit → Decidable q) :
    Decidable (p ∧ q) :=
  match first with
  | isFalse h => isFalse fun both => h both.1
  | isTrue h =>
    match second () with
    | isFalse h' => isFalse fun both => h' both.2
    | isTrue h' => isTrue ⟨h, h'⟩

/- A sort that is used many times is one tree in memory with many paths to it,
and following every path can take exponentially long. So stamps are compared
before parts, which settles the matter for different instances, and a part
that lies at the same address as its counterpart is not entered. -/

mutual

/-- Decide whether two sorts are the same. -/
def decEq : (s t : SmtSort) → Decidable (s = t)
  | .missing, t => match t with
    | .missing => isTrue rfl
    | .bare .. | .int .. | .bool .. | .bitVec .. | .array .. | .tuple .. | .function ..
    | .placeholder .. => isFalse nofun
  | .bare i, t => match t with
    | .bare j => decidable_of_iff (i = j) (by simp)
    | .missing | .int .. | .bool .. | .bitVec .. | .array .. | .tuple .. | .function ..
    | .placeholder .. => isFalse nofun
  | .int i a, t => match t with
    | .int j b => decidable_of_iff (i = j ∧ a = b) (by simp)
    | .missing | .bare .. | .bool .. | .bitVec .. | .array .. | .tuple .. | .function ..
    | .placeholder .. => isFalse nofun
  | .bool i, t => match t with
    | .bool j => decidable_of_iff (i = j) (by simp)
    | .missing | .bare .. | .int .. | .bitVec .. | .array .. | .tuple .. | .function ..
    | .placeholder .. => isFalse nofun
  | .bitVec i v, t => match t with
    | .bitVec j w => decidable_of_iff (i = j ∧ v = w) (by simp)
    | .missing | .bare .. | .int .. | .bool .. | .array .. | .tuple .. | .function ..
    | .placeholder .. => isFalse nofun
  | .array i d r, t => match t with
    | .array j e s =>
      @decidable_of_iff _ (i = j ∧ d = e ∧ r = s) (by simp) <|
        decideAnd (instDecidableEqNat i j) fun _ =>
          decideAnd (withPtrEqDecEq d e fun _ => decEq d e) fun _ =>
            withPtrEqDecEq r s fun _ => decEq r s
    | .missing | .bare .. | .int .. | .bool .. | .bitVec .. | .tuple .. | .function ..
    | .placeholder .. => isFalse nofun
  | .tuple i m fs, t => match t with
    | .tuple j n gs =>
      @decidable_of_iff _ (i = j ∧ m = n ∧ fs = gs) (by simp) <|
        decideAnd (instDecidableEqNat i j) fun _ =>
          decideAnd (instDecidableEqString m n) fun _ => decEqFields fs gs
    | .missing | .bare .. | .int .. | .bool .. | .bitVec .. | .array .. | .function ..
    | .placeholder .. => isFalse nofun
  | .function i ds c, t => match t with
    | .function j es d =>
      @decidable_of_iff _ (i = j ∧ ds = es ∧ c = d) (by simp) <|
        decideAnd (instDecidableEqNat i j) fun _ =>
          decideAnd (decEqList ds es) fun _ => withPtrEqDecEq c d fun _ => decEq c d
    | .missing | .bare .. | .int .. | .bool .. | .bitVec .. | .array .. | .tuple ..
    | .placeholder .. => isFalse nofun
  | .placeholder i s, t => match t with
    | .placeholder j u =>
      @decidable_of_iff _ (i = j ∧ s = u) (by simp) <|
        decideAnd (instDecidableEqNat i j) fun _ => withPtrEqDecEq s u fun _ => decEq s u
    | .missing | .bare .. | .int .. | .bool .. | .bitVec .. | .array .. | .tuple ..
    | .function .. => isFalse nofun

/-- Decide whether two lists of fields are the same. -/
def decEqFields : (fs gs : List (String × SmtSort)) → Decidable (fs = gs)
  | [], [] => isTrue rfl
  | [], _ :: _ => isFalse nofun
  | _ :: _, [] => isFalse nofun
  | (m, s) :: fs, (n, t) :: gs =>
    @decidable_of_iff _ (m = n ∧ s = t ∧ fs = gs) (by simp [and_assoc]) <|
      decideAnd (instDecidableEqString m n) fun _ =>
        decideAnd (withPtrEqDecEq s t fun _ => decEq s t) fun _ => decEqFields fs gs

/-- Decide whether two lists of sorts are the same. -/
def decEqList : (ss ts : List SmtSort) → Decidable (ss = ts)
  | [], [] => isTrue rfl
  | [], _ :: _ => isFalse nofun
  | _ :: _, [] => isFalse nofun
  | s :: ss, t :: ts =>
    @decidable_of_iff _ (s = t ∧ ss = ts) (by simp) <|
      decideAnd (withPtrEqDecEq s t fun _ => decEq s t) fun _ => decEqList ss ts

end

instance : DecidableEq SmtSort := fun s t => withPtrEqDecEq s t fun _ => decEq s t

/-- Induction over sorts. The recursor speaks of lists of fields and of sorts
    one element at a time; what a proof wants to assume is the statement for
    every sort that occurs in them. -/
@[induction_eliminator] theorem induction {motive : SmtSort → Prop} (missing : motive .missing)
    (bare : ∀ i, motive (.bare i)) (int : ∀ i b, motive (.int i b))
    (bool : ∀ i, motive (.bool i)) (bitVec : ∀ i w, motive (.bitVec i w))
    (array : ∀ i d r, motive d → motive r → motive (.array i d r))
    (tuple : ∀ i n fs, (∀ f ∈ fs, motive f.2) → motive (.tuple i n fs))
    (function : ∀ i ds c, (∀ d ∈ ds, motive d) → motive c → motive (.function i ds c))
    (placeholder : ∀ i s, motive s → motive (.placeholder i s)) (s : SmtSort) : motive s :=
  SmtSort.rec (motive_1 := motive) (motive_2 := fun fs => ∀ f ∈ fs, motive f.2)
    (motive_3 := fun ss => ∀ s ∈ ss, motive s) (motive_4 := fun f => motive f.2)
    missing bare int bool bitVec array tuple function placeholder
    (by simp) (by intro f fs hf hfs; simpa using ⟨hf, fun a b => hfs (a, b)⟩)
    (by simp) (by intro s ss hs hss; simpa using ⟨hs, hss⟩)
    (by intro _ _ h; exact h) s

/-- Whether a sort is the missing one. -/
def isMissing : SmtSort → Bool
  | .missing => true
  | _ => false

/-- The member names of a list of fields. -/
def members (fields : List (String × SmtSort)) : List String :=
  fields.map Prod.fst

/-- The component sorts of a list of fields. -/
def components (fields : List (String × SmtSort)) : List SmtSort :=
  fields.map Prod.snd

/-- The signed integers that all users share. -/
def sharedInt : SmtSort := .int 0 true

/-- The unsigned integers that all users share. -/
def sharedUnsigned : SmtSort := .int 1 false

/-- The truth values that all users share. -/
def sharedBool : SmtSort := .bool 2

/-- The first stamp that no shared sort carries. -/
def firstFreeStamp : Nat := 3

end SmtSort

end SmtSession
