import SmtSession.Text.Word
import SmtSession.Term

/-!
# Faults

Everything that can keep an operation from answering, as one type of causes.
The wording of a cause is a function of it, and so is its class, which says
what kind of mistake it is: a broken contract is a mistake of the caller, a
bad value is text that does not mean what it should, an unreadable input
broke off before its end.

## Main definitions

* `Fault`: The causes.
* `Fault.message`: The wording of a cause.
* `FaultClass`: The kinds of mistakes.
* `Fault.kind`: The kind of a cause.
* `orFault`: A result whose fault is one of these causes in disguise.
-/

namespace SmtSession

/-- The causes for which an operation gives no answer. -/
inductive Fault where
  /-- A requirement stated by the caller does not hold. -/
  | required (message : String)
  /-- The outermost scope is never closed. -/
  | outermostScope
  /-- A symbol is declared without a sort. -/
  | missingSort (name : String)
  /-- A function is declared with a sort that is no function sort. -/
  | notFunctionSort (name : String)
  /-- A tuple sort needs one component for each member. -/
  | tupleShape (name : String) (members components : Nat)
  /-- An array sort lacks its domain or its range. -/
  | incompleteArray
  /-- A sort has no written form. -/
  | unwritableSort (sort : SmtSort)
  /-- An operator has the wrong number of arguments. -/
  | arity (operator : Operator)
  /-- A conversion to integers does not have an integer sort. -/
  | conversionSort
  /-- A signed conversion to integers is not applied to a bit vector. -/
  | conversionOperand
  /-- The first argument of a constant array stands for no sort. -/
  | noPlaceholder
  /-- The sort of a constant array is no array sort. -/
  | noArraySort
  /-- A selection is not applied to a tuple. -/
  | selectionOperand
  /-- A tuple has no component with this index. -/
  | tupleIndex (index : Int)
  /-- A tuple is made without a tuple sort. -/
  | noTupleSort
  /-- A term to be evaluated is neither an integer nor a truth value. -/
  | evaluationSort
  /-- A parenthesis has no partner. -/
  | unbalanced
  /-- A list is used as an atom. -/
  | notAtom
  /-- An atom is used as a list. -/
  | notList
  /-- A numeral cannot be read. -/
  | numeral (cause : NumeralFault)
  /-- A text is no decimal number. -/
  | notDecimal (text : String)
  /-- A text is no command line. -/
  | words (cause : Text.WordFault)
  /-- A command line has no words. -/
  | emptyCommand
  /-- A label does not carry the tag of queries. -/
  | notLabel (label : String)
  /-- A name is not that of a known solver. -/
  | unknownSolver (name : String)
  /-- A text is not the value of a verdict. -/
  | unknownVerdict (value : String)
  /-- A sort has no kind. -/
  | kindless
  /-- The input of a reader failed. -/
  | unreadable (message : String)
  /-- The input of a reader was asked for more after its end. -/
  | pastEnd
  /-- Something outside the library failed. -/
  | foreign (message : String)
deriving Repr, DecidableEq

/-- The name by which a sort without a written form is reported. -/
def unwritableName : SmtSort → String
  | .missing => "NoneType"
  | .bare _ => "Sort"
  | .int _ _ => "IntSort"
  | .bool _ => "BoolSort"
  | .bitVec _ _ => "BitVectorSort"
  | .array _ _ _ => "ArraySort"
  | .tuple _ _ _ => "TupleSort"
  | .function _ _ _ => "FunctionSort"
  | .placeholder _ _ => "SortSort"

/-- The wording for an operator with the wrong number of arguments. -/
def arityMessage : Operator → String
  | .intToBitVec => "int2bv takes two arguments"
  | .bitVecToInt => "bv2int takes one argument"
  | .constArray => "const_array takes two arguments"
  | .tupleGet => "tuple_get takes two arguments"
  | .tupleMake | .symbol => ""

/-- The wording of a cause. -/
def Fault.message : Fault → String
  | .required "" => "SMT contract violation"
  | .required message => message
  | .outermostScope => "Cannot pop the outermost scope"
  | .missingSort name => "Missing sort for " ++ name
  | .notFunctionSort name => name ++ " is not a function sort"
  | .tupleShape name members components =>
    "Tuple sort " ++ name ++ " has " ++ SmtSession.numeral members ++ " members but "
      ++ SmtSession.numeral components ++ " components"
  | .incompleteArray => "Incomplete array sort"
  | .unwritableSort sort => "Invalid SMT sort: " ++ unwritableName sort
  | .arity operator => arityMessage operator
  | .conversionSort => "bv2int must have an Int sort"
  | .conversionOperand => "bv2int argument must be a bitvector"
  | .noPlaceholder => "const_array needs a sort placeholder"
  | .noArraySort => "const_array needs an array sort"
  | .selectionOperand => "tuple_get needs a tuple-sorted argument"
  | .tupleIndex index => "Tuple index out of range: " ++ decimalText index
  | .noTupleSort => "tuple_constructor needs a tuple sort"
  | .evaluationSort => "Invalid sort for expression to evaluate."
  | .unbalanced => "Unbalanced parentheses in S-expression"
  | .notAtom => "S-expression is not an atom"
  | .notList => "S-expression is not a list"
  | .numeral cause => cause.message
  | .notDecimal text => "could not convert string to float: " ++ Text.quoted text
  | .words .openQuote => "No closing quotation"
  | .words .danglingEscape => "No escaped character"
  | .emptyCommand => "Empty solver command"
  | .notLabel label => "Not an SMT query label: " ++ Text.quoted label
  | .unknownSolver name => "Unknown solver: " ++ Text.quoted name
  | .unknownVerdict value => Text.quoted value ++ " is not a valid CheckResult"
  | .kindless => ""
  | .unreadable message => "Cannot read S-expression input: " ++ message
  | .pastEnd => "Read past end of input"
  | .foreign message => message

/-- The kinds of mistakes. -/
inductive FaultClass where
  /-- A caller broke a rule of the interface. -/
  | contract
  /-- A text does not mean what it should. -/
  | value
  /-- The operation is not defined for its argument. -/
  | undefinedOperation
  /-- The input broke off before its end. -/
  | reading
  /-- The mistake was made elsewhere. -/
  | foreign
deriving Repr, DecidableEq

/-- The kind of a cause. -/
def Fault.kind : Fault → FaultClass
  | .numeral _ | .notDecimal _ | .words _ | .emptyCommand | .notLabel _ | .unknownSolver _
  | .unknownVerdict _ => .value
  | .kindless => .undefinedOperation
  | .unreadable _ | .pastEnd => .reading
  | .foreign _ => .foreign
  | _ => .contract

/-- A result whose fault is one of the causes in disguise. -/
def orFault {ε α : Type} (cause : ε → Fault) : Except ε α → Except Fault α
  | .ok value => .ok value
  | .error e => .error (cause e)

/-- A requirement of the caller: nothing happens when the condition holds. -/
def require (condition : Bool) (message : String) : Except Fault Unit :=
  if condition then .ok () else .error (.required message)

end SmtSession
