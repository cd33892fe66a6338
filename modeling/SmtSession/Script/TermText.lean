import SmtSession.Script.SortName

/-!
# Texts of Terms

How a term is written in a script. A leaf is written as its name and a symbol
as the list of its name and its arguments. The conversions between integers
and bit vectors are spelled out, because solvers take bit vectors as unsigned:
a negative integer is converted by negating the conversion of its opposite,
and a bit vector with its sign bit set stands for the opposite of its
negation.

Only a constant array names a sort, so only a constant array can make a term
introduce datatypes.

The checks of an operator happen in a fixed order, some of them after an
argument is rendered. A width is read before the argument that it converts;
whether that argument is a bit vector is asked after it is rendered.

## Main definitions

* `intToBitVecText`, `bitVecToIntText`, `constArrayText`: The spelled-out
  operators, from the texts of their operands.
* `termText`: The text of a term.
-/

namespace SmtSession

/-- The conversion of an integer to a bit vector, from the integer's text. -/
def intToBitVecText (width : Int) (value : String) : String :=
  let convert := "(_ int2bv " ++ decimalText width ++ ")"
  "(ite (>= " ++ value ++ " 0) (" ++ convert ++ " " ++ value ++ ") (bvneg (" ++ convert ++ " (- "
    ++ value ++ "))))"

/-- The conversion of a bit vector to the integer that it counts. -/
def unsignedText (value : String) : String := "(bv2nat " ++ value ++ ")"

/-- The conversion of a bit vector to the integer that it stands for in two's
    complement, from the text of the position of its sign bit. -/
def signedText (top value : String) : String :=
  "(ite (= ((_ extract " ++ top ++ " " ++ top ++ ") " ++ value ++ ") #b0) " ++ unsignedText value
    ++ " (- (bv2nat (bvneg " ++ value ++ "))))"

/-- The array with one value everywhere, from the texts of its sort and of the
    value. -/
def constArrayText (sort fill : String) : String := "((as const " ++ sort ++ ") " ++ fill ++ ")"

/-- A name applied to arguments, each of them written after a space. -/
def applicationText (head args : String) : String := "(" ++ head ++ args ++ ")"

/-- The integer that the name of an argument spells. -/
def argumentNumber (t : Term) : Rendering Int :=
  Rendering.lift (orFault .numeral (readInteger t.name))

/-- The text of a conversion to integers, once its operand is rendered. A
    signed one needs to know the operand's width. The position of the sign bit
    is calculated from it, and at the far negative end that makes one more
    digit than the width has. -/
def bitVecToIntText (isSigned : Bool) (operandSort : SmtSort) (value : String) : Rendering String :=
  if isSigned then
    match operandSort with
    | .bitVec _ width => do
      let top ← Rendering.lift (orFault .numeral (writeInteger (width - 1)))
      return signedText top value
    | _ => throw .conversionOperand
  else pure (unsignedText value)

/-- The member that an index selects. -/
def memberAt (fields : List (String × SmtSort)) (index : Int) : Rendering String :=
  if index < 0 then throw (.tupleIndex index)
  else match (SmtSort.members fields)[index.toNat]? with
    | some member => pure member
    | none => throw (.tupleIndex index)

mutual

/-- The text of a term. -/
def termText : Term → Rendering String
  | ⟨name, [], _⟩ => pure name
  | ⟨name, first :: others, sort⟩ =>
    match Operator.ofName name with
    | .intToBitVec =>
      match others with
      | [width] => do
        let w ← argumentNumber width
        let value ← termText first
        return intToBitVecText w value
      | _ => throw (.arity .intToBitVec)
    | .bitVecToInt =>
      match others with
      | [] =>
        match sort with
        | .int _ isSigned => do
          let value ← termText first
          bitVecToIntText isSigned first.sort value
        | _ => throw .conversionSort
      | _ => throw (.arity .bitVecToInt)
    | .constArray =>
      match others with
      | [fill] =>
        match first.sort with
        | .placeholder _ (.array i domain range) => do
          let arraySort ← sortName (.array i domain range)
          let value ← termText fill
          return constArrayText arraySort value
        | .placeholder _ _ => throw .noArraySort
        | _ => throw .noPlaceholder
      | _ => throw (.arity .constArray)
    | .tupleGet =>
      match others with
      | [index] =>
        match first.sort with
        | .tuple _ _ fields => do
          let i ← argumentNumber index
          let member ← memberAt fields i
          let value ← termText first
          return applicationText (bars member) (" " ++ value)
        | _ => throw .selectionOperand
      | _ => throw (.arity .tupleGet)
    | .tupleMake =>
      match sort with
      | .tuple _ tupleName _ => do
        let value ← termText first
        let values ← argumentTexts others
        return applicationText (bars tupleName) (" " ++ value ++ values)
      | _ => throw .noTupleSort
    | .symbol => do
      let value ← termText first
      let values ← argumentTexts others
      return applicationText name (" " ++ value ++ values)

/-- The texts of arguments, each after a space. -/
def argumentTexts : List Term → Rendering String
  | [] => pure ""
  | arg :: args => do
    let value ← termText arg
    let values ← argumentTexts args
    return " " ++ value ++ values

end

end SmtSession
