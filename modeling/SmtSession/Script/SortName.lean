import SmtSession.Script.Basic

/-!
# Names of Sorts

How a sort is written in a script. Rendering a sort has an effect: a tuple
sort is written as the name of a datatype, and the script has to introduce
that datatype before the name means anything. The declaration goes into the
innermost scope the first time a tuple of that name is rendered, after the
declarations of the tuples among its components.

A rendered sort is remembered, so a second rendering of the same sort only
looks its name up.

Sorts with a part missing have no name, and neither have bit vectors of a width
that is too long to be written.

## Main definitions

* `bars`: A symbol between bars.
* `remembered`: Look a sort's name up, or render it and remember it.
* `introduceTuple`: The name of a tuple sort, with its datatype introduced.
* `sortName`: The name of a sort.
* `signature`: A list of sorts, as the domain of a function is written.
-/

namespace SmtSession

/-- A symbol between bars. -/
def bars (name : String) : String := "|" ++ name ++ "|"

/-- The name of the bit vectors of a width, from the text of the width. -/
def bitVecName (width : String) : String := "(_ BitVec " ++ width ++ ")"

/-- The name of an array sort, from the names of its domain and its range. -/
def arrayName (domain range : String) : String := "(Array " ++ domain ++ " " ++ range ++ ")"

/-- A selector in the declaration of a datatype. -/
def selectorText (member component : String) : String :=
  " (" ++ bars member ++ " " ++ component ++ ")"

/-- The declaration of a datatype with one constructor, which has the name of
    the datatype and the given selectors. -/
def datatypeText (name selectors : String) : String :=
  "(declare-datatypes ((" ++ bars name ++ " 0)) (((" ++ bars name ++ selectors ++ "))))"

/-- Look a sort's name up, or render it and remember the name. -/
def remembered (sort : SmtSort) (render : Rendering String) : Rendering String := do
  match (← get).sortName? sort with
  | some name => return name
  | none =>
    let name ← render
    modify (·.nameSort sort name)
    return name

/-- The name of a tuple sort. Its datatype is introduced unless one of that
    name already is. -/
def introduceTuple (name : String) (selectors : Rendering String) : Rendering String := do
  if (← get).hasDatatype (bars name) then
    return bars name
  else
    let text ← selectors
    modify (·.introduce (bars name) (datatypeText name text))
    return bars name

mutual

/-- The name of a sort. -/
def sortName : SmtSort → Rendering String
  | .int i signed => remembered (.int i signed) (pure "Int")
  | .bool i => remembered (.bool i) (pure "Bool")
  | .bitVec i width => remembered (.bitVec i width) do
    let text ← Rendering.lift (orFault .numeral (writeInteger width))
    return bitVecName text
  | .array i domain range => remembered (.array i domain range) do
    Rendering.ensure (!domain.isMissing && !range.isMissing) .incompleteArray
    let d ← sortName domain
    let r ← sortName range
    return arrayName d r
  | .tuple i name fields =>
    remembered (.tuple i name fields) (introduceTuple name (selectorTexts fields))
  | .missing => throw (.unwritableSort .missing)
  | .bare i => throw (.unwritableSort (.bare i))
  | .function i domain codomain => throw (.unwritableSort (.function i domain codomain))
  | .placeholder i inner => throw (.unwritableSort (.placeholder i inner))

/-- The selectors of a tuple sort. -/
def selectorTexts : List (String × SmtSort) → Rendering String
  | [] => pure ""
  | (member, component) :: fields => do
    let name ← sortName component
    let rest ← selectorTexts fields
    return selectorText member name ++ rest

end

/-- The names of sorts, each followed by a space. -/
def spacedSortNames : List SmtSort → Rendering String
  | [] => pure ""
  | sort :: sorts => do
    let name ← sortName sort
    let rest ← spacedSortNames sorts
    return name ++ " " ++ rest

/-- A list of sorts, as the domain of a function is written. -/
def signature (sorts : List SmtSort) : Rendering String := do
  let names ← spacedSortNames sorts
  return "(" ++ names ++ ")"

end SmtSession
