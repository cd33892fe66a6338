import SmtSession.Script.Query

/-!
# Written Forms

How sorts and terms are written, without the script that they are written
into. Rendering a sort or a term looks names up, introduces datatypes and may
give up half-way; what it writes, if it writes anything, depends on nothing
but the sort or the term. The functions here are that text, by recursion on
the tree and with no state.

Not everything has a written form. `SmtSort.HasName` and `Term.WellFormed`
say what does; for everything else the functions give a text that nobody
asks for.

A written form mentions tuple sorts by name, and the names mean nothing
before the datatypes are introduced. `SmtSort.mentioned` and
`Term.mentioned` list the names that occur in the written form, which is less
than all tuple sorts in the tree: a tuple sort is mentioned by its own name
alone, whatever its components, and only a constant array makes a term
mention its sort. `SmtSort.tuples` and `Term.tuples` list all of them.

## Main definitions

* `Datatype`: A tuple sort as a declaration, with a name and fields.
* `SmtSort.HasName`, `SmtSort.writtenName`: The sorts that can be written, and
  how.
* `SmtSort.mentioned`, `SmtSort.tuples`: The tuple sorts in a name and in a
  sort.
* `Term.WellFormed`, `Term.writtenText`: The terms that can be written, and
  how.
* `Term.mentioned`, `Term.tuples`: The tuple sorts in a text and in a term.
* `Term.namedSorts`: The sorts that have to be written for a term.
* `Term.writtenTail`, `Term.Evaluable`: The tail of a query, and the terms that
  it can ask for.

## Theorems

* `SmtSort.fieldTuples_subset_tuples`, `Term.fieldTuples_subset_tuples`: A tuple
  sort comes with the tuple sorts among its components.
* `SmtSort.not_mem_fieldTuples`: It is not one of them.
* `Term.listTuples_namedSorts_subset`: The tuple sorts that have to be written for a
  term are all in the term.
-/

namespace SmtSession

/-- A tuple sort as a script declares it: a name, and the name and the sort of
    each member. -/
structure Datatype where
  name : String
  fields : List (String × SmtSort)

namespace SmtSort

/-- The sorts that have a name. The width of bit vectors has to be short enough.
    The components of a tuple sort do not matter, because its name is its own. -/
def HasName : SmtSort → Prop
  | .int _ _ | .bool _ | .tuple _ _ _ => True
  | .bitVec _ width => IsWritable width
  | .array _ domain range => HasName domain ∧ HasName range
  | .missing | .bare _ | .function _ _ _ | .placeholder _ _ => False

/-- The name of a sort. -/
def writtenName : SmtSort → String
  | .int _ _ => "Int"
  | .bool _ => "Bool"
  | .bitVec _ width => bitVecName (decimalText width)
  | .array _ domain range => arrayName (writtenName domain) (writtenName range)
  | .tuple _ name _ => bars name
  | .missing | .bare _ | .function _ _ _ | .placeholder _ _ => ""

/-- The tuple sorts that the name of a sort mentions. -/
def mentioned : SmtSort → List String
  | .array _ domain range => mentioned domain ++ mentioned range
  | .tuple _ name _ => [name]
  | _ => []

mutual

/-- All tuple sorts that occur in a sort. -/
def tuples : SmtSort → List Datatype
  | .array _ domain range => tuples domain ++ tuples range
  | .tuple _ name fields => fieldTuples fields ++ [⟨name, fields⟩]
  | .function _ domain codomain => listTuples domain ++ tuples codomain
  | .placeholder _ inner => tuples inner
  | .missing | .bare _ | .int _ _ | .bool _ | .bitVec _ _ => []

/-- All tuple sorts that occur in fields. -/
def fieldTuples : List (String × SmtSort) → List Datatype
  | [] => []
  | (_, sort) :: fields => tuples sort ++ fieldTuples fields

/-- All tuple sorts that occur in a list of sorts. -/
def listTuples : List SmtSort → List Datatype
  | [] => []
  | sort :: sorts => tuples sort ++ listTuples sorts

end

theorem mem_fieldTuples {fields : List (String × SmtSort)} {d : Datatype} :
    d ∈ fieldTuples fields ↔ ∃ field ∈ fields, d ∈ field.2.tuples := by
  induction fields with
  | nil => simp [fieldTuples]
  | cons field fields ih => simp [fieldTuples, ih]

theorem mem_listTuples {sorts : List SmtSort} {d : Datatype} :
    d ∈ listTuples sorts ↔ ∃ sort ∈ sorts, d ∈ sort.tuples := by
  induction sorts with
  | nil => simp [listTuples]
  | cons sort sorts ih => simp [listTuples, ih]

theorem listTuples_append (sorts sorts' : List SmtSort) :
    listTuples (sorts ++ sorts') = listTuples sorts ++ listTuples sorts' := by
  induction sorts with
  | nil => rfl
  | cons sort sorts ih => rw [List.cons_append, listTuples, listTuples, ih, List.append_assoc]

/-- The tuple sorts among the components of a tuple sort come with it. -/
theorem fieldTuples_subset_tuples {sort : SmtSort} {d : Datatype} (hd : d ∈ sort.tuples) :
    fieldTuples d.fields ⊆ sort.tuples := by
  induction sort with
  | array i domain range ihd ihr =>
      rw [tuples] at hd ⊢
      rcases List.mem_append.mp hd with hd | hd
      · exact fun e he => List.mem_append_left _ (ihd hd he)
      · exact fun e he => List.mem_append_right _ (ihr hd he)
  | tuple i name fields ih =>
      rw [tuples] at hd ⊢
      rcases List.mem_append.mp hd with hd | hd
      · obtain ⟨field, hfield, hd⟩ := mem_fieldTuples.mp hd
        exact fun e he =>
          List.mem_append_left _ (mem_fieldTuples.mpr ⟨field, hfield, ih field hfield hd he⟩)
      · obtain rfl := List.mem_singleton.mp hd
        exact fun e he => List.mem_append_left _ he
  | function i domain codomain ihd ihc =>
      rw [tuples] at hd ⊢
      rcases List.mem_append.mp hd with hd | hd
      · obtain ⟨sort, hsort, hd⟩ := mem_listTuples.mp hd
        exact fun e he =>
          List.mem_append_left _ (mem_listTuples.mpr ⟨sort, hsort, ihd sort hsort hd he⟩)
      · exact fun e he => List.mem_append_right _ (ihc hd he)
  | placeholder i inner ih =>
      rw [tuples] at hd ⊢
      exact ih hd
  | _ => simp [tuples] at hd

theorem sizeOf_component_lt {fields : List (String × SmtSort)} {field : String × SmtSort}
    (hfield : field ∈ fields) : sizeOf field.2 < sizeOf fields := by
  have hlt := List.sizeOf_lt_of_mem hfield
  rcases field with ⟨member, sort⟩
  simp only [Prod.mk.sizeOf_spec] at hlt
  dsimp only
  omega

/-- A tuple sort has fewer parts than a sort that it occurs in. -/
theorem sizeOf_fields_lt {sort : SmtSort} {d : Datatype} (hd : d ∈ sort.tuples) :
    sizeOf d.fields < sizeOf sort := by
  induction sort with
  | array i domain range ihd ihr =>
      simp only [array.sizeOf_spec]
      rcases List.mem_append.mp (tuples.eq_def _ ▸ hd) with hd | hd
      · exact Nat.lt_of_lt_of_le (ihd hd) (by omega)
      · exact Nat.lt_of_lt_of_le (ihr hd) (by omega)
  | tuple i name fields ih =>
      simp only [tuple.sizeOf_spec]
      rcases List.mem_append.mp (tuples.eq_def _ ▸ hd) with hd | hd
      · obtain ⟨field, hfield, hd⟩ := mem_fieldTuples.mp hd
        have hlt := sizeOf_component_lt hfield
        exact Nat.lt_trans (ih field hfield hd) (by omega)
      · obtain rfl := List.mem_singleton.mp hd
        dsimp only
        omega
  | function i domain codomain ihd ihc =>
      simp only [function.sizeOf_spec]
      rcases List.mem_append.mp (tuples.eq_def _ ▸ hd) with hd | hd
      · obtain ⟨sort, hsort, hd⟩ := mem_listTuples.mp hd
        have hlt := List.sizeOf_lt_of_mem hsort
        exact Nat.lt_trans (ihd sort hsort hd) (by omega)
      · exact Nat.lt_of_lt_of_le (ihc hd) (by omega)
  | placeholder i inner ih =>
      simp only [placeholder.sizeOf_spec]
      exact Nat.lt_of_lt_of_le (ih (tuples.eq_def _ ▸ hd)) (by omega)
  | _ => simp [tuples] at hd

/-- No tuple sort is among its own components. -/
theorem not_mem_fieldTuples (d : Datatype) : d ∉ fieldTuples d.fields := by
  intro hd
  obtain ⟨field, hfield, hd⟩ := mem_fieldTuples.mp hd
  exact Nat.lt_asymm (sizeOf_fields_lt hd) (sizeOf_component_lt hfield)

/-- The names of sorts, each followed by a space. -/
def writtenNames (sorts : List SmtSort) : String :=
  String.join (sorts.map fun sort => sort.writtenName ++ " ")

/-- Whether a sort is one of integers. -/
def IsInt : SmtSort → Prop
  | .int _ _ => True
  | _ => False

/-- Whether a sort is one of signed integers. -/
def isSigned : SmtSort → Bool
  | .int _ signed => signed
  | _ => false

/-- The width of a sort of bit vectors. -/
def width? : SmtSort → Option Int
  | .bitVec _ width => some width
  | _ => none

/-- The sort that a placeholder stands for, when that is a sort of arrays. -/
def heldArray? : SmtSort → Option SmtSort
  | .placeholder _ (.array i domain range) => some (.array i domain range)
  | _ => none

theorem tuples_of_mem_heldArray? {sort held : SmtSort} (h : held ∈ sort.heldArray?) :
    held.tuples = sort.tuples := by
  cases sort with
  | placeholder i inner =>
      cases inner with
      | array j domain range =>
          obtain rfl := Option.some.inj h
          rw [tuples.eq_def (.placeholder _ _)]
      | _ => cases h
  | _ => cases h

/-- The name and the fields of a tuple sort. -/
def datatype? : SmtSort → Option Datatype
  | .tuple _ name fields => some ⟨name, fields⟩
  | _ => none

end SmtSort

namespace Datatype

/-- The selectors of a datatype. -/
def selectors (fields : List (String × SmtSort)) : String :=
  String.join (fields.map fun field => selectorText field.1 field.2.writtenName)

/-- The command that declares a datatype. -/
def declaration (d : Datatype) : String := datatypeText d.name (selectors d.fields)

/-- What a script remembers of a datatype. -/
def entry (d : Datatype) : String × String := (bars d.name, d.declaration)

/-- The tuple sorts that the declaration of a datatype mentions as sorts of
    components. -/
def mentioned (d : Datatype) : List String := d.fields.flatMap fun field => field.2.mentioned

/-- The member that an index selects. -/
def member? (d : Datatype) (index : Int) : Option String :=
  if index < 0 then none else (SmtSort.members d.fields)[index.toNat]?

end Datatype

namespace Term

/-- The integer that the name of a term spells. -/
def number? (t : Term) : Option Int := (readInteger t.name).toOption

/-- The position of the sign bit of a bit vector, when it can be written. -/
def signBit? (t : Term) : Option String :=
  t.sort.width?.bind fun width => (writeInteger (width - 1)).toOption

/-- The member that a term with an index for a name selects from a tuple. -/
def selected? (tuple index : Term) : Option String :=
  tuple.sort.datatype?.bind fun d => index.number?.bind d.member?

mutual

/-- The terms that have a written form. -/
def WellFormed : Term → Prop
  | ⟨_, [], _⟩ => True
  | ⟨name, first :: others, sort⟩ =>
    match Operator.ofName name, others with
    | .intToBitVec, [width] => width.number?.isSome ∧ WellFormed first
    -- Only a signed conversion has to know the width of its operand.
    | .bitVecToInt, [] =>
      sort.IsInt ∧ WellFormed first ∧ (sort.isSigned → first.signBit?.isSome)
    -- The first argument stands for a sort and is not written itself.
    | .constArray, [fill] => (∃ a ∈ first.sort.heldArray?, a.HasName) ∧ WellFormed fill
    | .tupleGet, [index] => (selected? first index).isSome ∧ WellFormed first
    | .tupleMake, others => sort.datatype?.isSome ∧ WellFormed first ∧ AllWellFormed others
    | .symbol, others => WellFormed first ∧ AllWellFormed others
    | _, _ => False

/-- The lists of terms that all have a written form. -/
def AllWellFormed : List Term → Prop
  | [] => True
  | t :: ts => WellFormed t ∧ AllWellFormed ts

end

mutual

/-- The text of a term. -/
def writtenText : Term → String
  | ⟨name, [], _⟩ => name
  | ⟨name, first :: others, sort⟩ =>
    match Operator.ofName name, others with
    | .intToBitVec, [width] => intToBitVecText (width.number?.getD 0) (writtenText first)
    | .bitVecToInt, [] =>
      if sort.isSigned then signedText (first.signBit?.getD "") (writtenText first)
      else unsignedText (writtenText first)
    | .constArray, [fill] =>
      constArrayText ((first.sort.heldArray?.map SmtSort.writtenName).getD "") (writtenText fill)
    | .tupleGet, [index] =>
      applicationText (bars ((selected? first index).getD "")) (" " ++ writtenText first)
    | .tupleMake, others =>
      applicationText (bars ((sort.datatype?.map Datatype.name).getD ""))
        (" " ++ writtenText first ++ writtenArgs others)
    | .symbol, others => applicationText name (" " ++ writtenText first ++ writtenArgs others)
    | _, _ => ""

/-- The texts of arguments, each after a space. -/
def writtenArgs : List Term → String
  | [] => ""
  | t :: ts => " " ++ writtenText t ++ writtenArgs ts

end

mutual

/-- The tuple sorts that the text of a term mentions as sorts. -/
def mentioned : Term → List String
  -- A leaf is written as its name, whatever its sort.
  | ⟨_, [], _⟩ => []
  | ⟨name, first :: others, _⟩ =>
    match Operator.ofName name, others with
    | .intToBitVec, [_] => mentioned first
    | .bitVecToInt, [] => mentioned first
    -- The array sort is rendered before the value that fills it.
    | .constArray, [fill] =>
      (first.sort.heldArray?.map SmtSort.mentioned).getD [] ++ mentioned fill
    | .tupleGet, [_] => mentioned first
    | .tupleMake, others => mentioned first ++ argsMentioned others
    | .symbol, others => mentioned first ++ argsMentioned others
    | _, _ => []

/-- The tuple sorts that the texts of arguments mention as sorts. -/
def argsMentioned : List Term → List String
  | [] => []
  | t :: ts => mentioned t ++ argsMentioned ts

end

mutual

/-- The sorts that the text of a term names, tuple sorts or not. -/
def namedSorts : Term → List SmtSort
  | ⟨_, [], _⟩ => []
  | ⟨name, first :: others, _⟩ =>
    match Operator.ofName name, others with
    | .intToBitVec, [_] => namedSorts first
    | .bitVecToInt, [] => namedSorts first
    | .constArray, [fill] => first.sort.heldArray?.toList ++ namedSorts fill
    | .tupleGet, [_] => namedSorts first
    | .tupleMake, others => namedSorts first ++ argsNamedSorts others
    | .symbol, others => namedSorts first ++ argsNamedSorts others
    | _, _ => []

/-- The sorts that the texts of arguments name. -/
def argsNamedSorts : List Term → List SmtSort
  | [] => []
  | t :: ts => namedSorts t ++ argsNamedSorts ts

end

mutual

/-- All tuple sorts in the sorts of a term and of its parts. -/
def tuples : Term → List Datatype
  | ⟨_, args, sort⟩ => sort.tuples ++ argsTuples args

/-- All tuple sorts in the sorts of terms and of their parts. -/
def argsTuples : List Term → List Datatype
  | [] => []
  | t :: ts => tuples t ++ argsTuples ts

end

theorem mem_argsTuples {terms : List Term} {d : Datatype} :
    d ∈ argsTuples terms ↔ ∃ t ∈ terms, d ∈ t.tuples := by
  induction terms with
  | nil => simp [argsTuples]
  | cons t terms ih => simp [argsTuples, ih]

theorem fieldTuples_subset_tuples {t : Term} {d : Datatype} (hd : d ∈ t.tuples) :
    SmtSort.fieldTuples d.fields ⊆ t.tuples := by
  induction t with
  | node name args sort ih =>
      rw [tuples] at hd ⊢
      rcases List.mem_append.mp hd with hd | hd
      · exact fun e he => List.mem_append_left _ (SmtSort.fieldTuples_subset_tuples hd he)
      · obtain ⟨a, ha, hd⟩ := mem_argsTuples.mp hd
        exact fun e he => List.mem_append_right _ (mem_argsTuples.mpr ⟨a, ha, ih a ha hd he⟩)

theorem mem_tuples_of_mem_sort (t : Term) (d : Datatype) (h : d ∈ t.sort.tuples) :
    d ∈ t.tuples := by
  rcases t with ⟨name, args, sort⟩
  rw [tuples]
  exact List.mem_append_left _ h

theorem mem_argsNamedSorts {terms : List Term} {sort : SmtSort} :
    sort ∈ argsNamedSorts terms ↔ ∃ t ∈ terms, sort ∈ t.namedSorts := by
  induction terms with
  | nil => simp [argsNamedSorts]
  | cons t terms ih => simp [argsNamedSorts, ih]

/-- A sort that a text names is that of a part of the term. -/
theorem tuples_subset_of_mem_namedSorts {t : Term} {sort : SmtSort} (h : sort ∈ t.namedSorts) :
    sort.tuples ⊆ t.tuples := by
  induction t with
  | node name args own ih =>
      have hpart {a : Term} (ha : a ∈ args) (hsort : sort.tuples ⊆ a.tuples) :
          sort.tuples ⊆ (⟨name, args, own⟩ : Term).tuples := fun d hd =>
        List.mem_append_right _ (mem_argsTuples.mpr ⟨a, ha, hsort hd⟩)
      cases args with
      | nil => cases h
      | cons first others =>
          have hfirst (h : sort ∈ first.namedSorts) :
              sort.tuples ⊆ (⟨name, first :: others, own⟩ : Term).tuples :=
            hpart List.mem_cons_self (ih first List.mem_cons_self h)
          have hothers (h : sort ∈ argsNamedSorts others) :
              sort.tuples ⊆ (⟨name, first :: others, own⟩ : Term).tuples := by
            obtain ⟨a, ha, hsort⟩ := mem_argsNamedSorts.mp h
            have ha := List.mem_cons_of_mem first ha
            exact hpart ha (ih a ha hsort)
          rw [namedSorts.eq_def] at h
          dsimp only at h
          split at h
          · exact hfirst h
          · exact hfirst h
          · rcases List.mem_append.mp h with h | h
            · -- The array sort hides in the sort of the first argument.
              have hheld := SmtSort.tuples_of_mem_heldArray? (Option.mem_toList.mp h)
              exact hpart List.mem_cons_self fun d hd =>
                first.mem_tuples_of_mem_sort d (hheld ▸ hd)
            · exact hothers (by simpa [argsNamedSorts] using h)
          · exact hfirst h
          · exact (List.mem_append.mp h).elim hfirst hothers
          · exact (List.mem_append.mp h).elim hfirst hothers
          · cases h

theorem listTuples_namedSorts_subset (t : Term) :
    SmtSort.listTuples t.namedSorts ⊆ t.tuples := by
  intro d hd
  obtain ⟨sort, hsort, hd⟩ := SmtSort.mem_listTuples.mp hd
  exact tuples_subset_of_mem_namedSorts hsort hd

theorem listTuples_argsNamedSorts_subset (terms : List Term) :
    SmtSort.listTuples (argsNamedSorts terms) ⊆ argsTuples terms := by
  intro d hd
  obtain ⟨sort, hsort, hd⟩ := SmtSort.mem_listTuples.mp hd
  obtain ⟨t, ht, hsort⟩ := mem_argsNamedSorts.mp hsort
  exact mem_argsTuples.mpr ⟨t, ht, tuples_subset_of_mem_namedSorts hsort hd⟩

/-- The lines that bind terms to the constants from a position on. -/
def writtenBindings : Nat → List Term → String
  | _, [] => ""
  | position, t :: ts =>
    bindingText position ((evaluationSort t.sort).toOption.getD "") t.writtenText
      ++ writtenBindings (position + 1) ts

/-- The commands that ask for an answer, and for the values of terms if there
    are any. -/
def writtenTail (terms : List Term) : String :=
  if terms.isEmpty then "(check-sat)\n"
  else writtenBindings 0 terms ++ "(check-sat)\n(get-value ("
    ++ evaluationNames (List.range terms.length) ++ "))\n"

/-- The terms that can be evaluated. -/
def Evaluable (t : Term) : Prop :=
  (evaluationSort t.sort).toOption.isSome = true ∧ t.WellFormed

end Term

end SmtSession
