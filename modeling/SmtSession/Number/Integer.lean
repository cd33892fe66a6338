import SmtSession.Text.Blank
import SmtSession.Text.Digit
import SmtSession.Text.Quoted

/-!
# Written Integers

Widths and indices reach the encoder as text. An integer is written as
decimal digits of any script, with at most one sign directly in front of
them, single underscores between them where the writer likes, and blanks
around the whole. More than 4300 digits are refused, because reading or
writing a decimal numeral takes time quadratic in its length.

The length is judged when the digits end, before what follows them: a numeral
that is too long is reported as such even when something unreadable follows.

## Main definitions

* `digitLimit`: The most digits a decimal numeral may have.
* `numeral`: The decimal text of a natural number.
* `decimalText`: The decimal text of an integer.
* `IsWritable`: Whether an integer is short enough to be written.
* `WritableInt`: An integer that is.
* `NumeralFault`: What keeps a text from being an integer, or the reverse.
* `writeInteger`: The text of an integer that may be too long for one.
* `groupedDigits?`: The digits of a run with single underscores inside.
* `readInteger`: The integer a text spells.

## Theorems

* `toList_numeral`: A numeral consists of the digits of its number.
* `WritableInt.ofInt_eq_ok_iff`: Which integers are writable.
* `writeInteger_of_isWritable`, `writeInteger_of_not_isWritable`: What is written.
-/

namespace SmtSession

/-- The most digits that a decimal numeral may have. -/
def digitLimit : Nat := 4300

/-- The decimal text of a natural number. -/
def numeral (n : Nat) : String :=
  String.ofList (Nat.toDigits 10 n)

theorem toList_numeral (n : Nat) : (numeral n).toList = Nat.toDigits 10 n :=
  String.toList_ofList

/-- The decimal text of an integer: a minus sign in front of the numeral of a
    negative one. -/
def decimalText : Int → String
  | .ofNat n => numeral n
  | .negSucc n => "-" ++ numeral (n + 1)

/-- Whether an integer is short enough to be written. Its sign does not count. -/
def IsWritable (n : Int) : Prop := (numeral n.natAbs).length ≤ digitLimit

instance (n : Int) : Decidable (IsWritable n) :=
  inferInstanceAs (Decidable (_ ≤ _))

/-- What keeps a text from being an integer, or an integer from having a
    text. -/
inductive NumeralFault where
  /-- The text is not written as an integer. -/
  | notInteger (text : String)
  /-- The numeral has more digits than may be read. -/
  | tooLong (digits : Nat)
  /-- The integer has more digits than may be written. -/
  | tooLongToWrite
deriving Repr, DecidableEq

/-- The wording of a fault. A text that is no integer is quoted, up to two
    hundred characters of the quotation. -/
def NumeralFault.message : NumeralFault → String
  | .notInteger text =>
    "invalid literal for int() with base 10: " ++ String.ofList ((Text.quoted text).toList.take 200)
  | .tooLong digits =>
    "Exceeds the limit (" ++ numeral digitLimit
      ++ " digits) for integer string conversion: value has " ++ numeral digits
      ++ " digits; use sys.set_int_max_str_digits() to increase the limit"
  | .tooLongToWrite =>
    "Exceeds the limit (" ++ numeral digitLimit
      ++ " digits) for integer string conversion; "
      ++ "use sys.set_int_max_str_digits() to increase the limit"

/-- An integer that is short enough to be written. -/
structure WritableInt where
  value : Int
  writable : IsWritable value
deriving Repr, DecidableEq

namespace WritableInt

/-- An integer, unless it is too long to be written. -/
def ofInt (n : Int) : Except NumeralFault WritableInt :=
  if h : IsWritable n then .ok ⟨n, h⟩ else .error .tooLongToWrite

/-- The text of a writable integer. -/
def text (n : WritableInt) : String := decimalText n.value

theorem ofInt_eq_ok_iff (n : Int) (m : WritableInt) : ofInt n = .ok m ↔ m.value = n := by
  rw [ofInt]
  split
  · next hn =>
      constructor
      · intro h
        cases h
        rfl
      · rintro rfl
        rfl
  · next hn =>
      constructor
      · intro h
        cases h
      · rintro rfl
        exact absurd m.writable hn

end WritableInt

/-- The decimal text of an integer, unless it is too long. Integers that were
    read are never too long; one that was calculated or handed over may be. -/
def writeInteger (n : Int) : Except NumeralFault String :=
  (WritableInt.ofInt n).map WritableInt.text

theorem writeInteger_of_isWritable {n : Int} (h : IsWritable n) :
    writeInteger n = .ok (decimalText n) := by
  rw [writeInteger, WritableInt.ofInt, dif_pos h]
  rfl

theorem writeInteger_of_not_isWritable {n : Int} (h : ¬ IsWritable n) :
    writeInteger n = .error .tooLongToWrite := by
  rw [writeInteger, WritableInt.ofInt, dif_neg h]
  rfl

/-- The number that a run of decimal digits spells, unless the run is too
    long. -/
def readDecimal (digits : List Char) : Except NumeralFault Nat :=
  if digits.length > digitLimit then .error (.tooLong digits.length)
  else .ok (Text.decimalOf digits)

/-- The characters that the digits of an integer consist of. -/
def isGrouped (c : Char) : Bool :=
  c = '_' || Text.isDigit c

/-- The digits of a run of digits and underscores, when every underscore
    stands between two digits. -/
def groupedDigits? : List Char → Option (List Char)
  | [] => none
  | [c] => if c = '_' then none else some [c]
  | c :: d :: cs =>
    if c = '_' then none
    else if d = '_' then (groupedDigits? cs).map (c :: ·)
    else (groupedDigits? (d :: cs)).map (c :: ·)

/-- A leading sign, as "is it a minus", and the rest of the text. -/
def takeSign : List Char → Bool × List Char
  | '-' :: cs => (true, cs)
  | '+' :: cs => (false, cs)
  | cs => (false, cs)

/-- The integer with a sign and an absolute value. -/
def signed (negative : Bool) (n : Nat) : Int :=
  if negative then -n else n

/-- The integer a text spells. -/
def readInteger (text : String) : Except NumeralFault Int :=
  let (negative, body) := takeSign (text.toList.dropWhile Text.isNumberBlank)
  match groupedDigits? (body.takeWhile isGrouped) with
  | none => .error (.notInteger text)
  | some digits => do
    let n ← readDecimal digits
    if (body.dropWhile isGrouped).all Text.isNumberBlank then .ok (signed negative n)
    else .error (.notInteger text)

end SmtSession
