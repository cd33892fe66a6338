import SmtSession.Number.Integer

/-!
# Binary Floating-Point Numbers

A time limit may be a fraction of a second. It is kept as a binary
floating-point number with 53 significant bits, because that is the precision
in which it is handed on, and it is shown as the shortest decimal that reads
back to the same number.

All arithmetic here is exact arithmetic on naturals. A decimal is read by
dividing it out to 53 bits and rounding to nearest, ties to even. For the
other direction, the decimals that read back to a number form an interval
around it, from halfway to the neighbour below to halfway to the neighbour
above, the ends included exactly when the significand is even. The shortest
text is found by trying the two decimals around the number with one digit,
with two, and so on; seventeen always suffice.

## Main definitions

* `Binary64`: Binary floating-point numbers.
* `Binary64.ofRatio`: The number nearest to a fraction.
* `Binary64.ofDecimal`: The number nearest to `digits * 10 ^ exponent`.
* `Binary64.readsBack`: Whether a decimal reads back to a number.
* `Binary64.shortest`: The shortest decimal that reads back to a number.
* `Binary64.text`: The text of a number.
* `readBinary64`: The number a text spells.
-/

namespace SmtSession

/-- A binary floating-point number. A finite one is
    `significand * 2 ^ exponent` with a sign, where the significand is below
    `2 ^ 53` and as large as an exponent of at least `-1074` allows. -/
inductive Binary64 where
  | finite (negative : Bool) (significand : Nat) (exponent : Int)
  | infinite (negative : Bool)
  | notANumber
deriving Repr, DecidableEq

namespace Binary64

/-- A power of two. -/
def twoPow (n : Nat) : Nat := Nat.pow 2 n

/-- A power of ten. -/
def tenPow (n : Nat) : Nat := Nat.pow 10 n

/-- A quotient rounded to the nearest natural number, ties to even. -/
def roundQuotient (num den : Nat) : Nat :=
  let quotient := num / den
  match compare (2 * (num % den)) den with
  | .lt => quotient
  | .gt => quotient + 1
  | .eq => if quotient % 2 = 0 then quotient else quotient + 1

/-- Scale a fraction by a power of two, as numerator and denominator. -/
def scaled (num den : Nat) (exponent : Int) : Nat × Nat :=
  (num * twoPow exponent.toNat, den * twoPow (-exponent).toNat)

/-- The least exponent, from the smallest one on, at which a fraction has at
    most 53 bits before the binary point. The logarithms determine it up to
    one. -/
def exponentFor (num den : Nat) : Int :=
  let guess : Int := (num.log2 : Int) - (den.log2 : Int) - 53
  let (n, d) := scaled num den (-guess)
  max (-1074) (if n / d < twoPow 53 then guess else guess + 1)

/-- The number nearest to a fraction with positive denominator, ties to even;
    infinite from half a step above the largest finite number on. -/
def ofRatio (negative : Bool) (num den : Nat) : Binary64 :=
  if num = 0 then .finite negative 0 (-1074)
  else
    let exponent := exponentFor num den
    let (n, d) := scaled num den (-exponent)
    let rounded := roundQuotient n d
    let (significand, exponent) :=
      if rounded = twoPow 53 then (twoPow 52, exponent + 1) else (rounded, exponent)
    if exponent > 971 then .infinite negative else .finite negative significand exponent

/-- The number nearest to `digits * 10 ^ exponent`. Beyond the four hundredth
    decimal place on either side everything is infinite or zero, and the power
    of ten is not computed. -/
def ofDecimal (negative : Bool) (digits : Nat) (exponent : Int) : Binary64 :=
  let places : Int := (numeral digits).length + exponent
  if digits = 0 ∨ places < -400 then .finite negative 0 (-1074)
  else if places > 400 then .infinite negative
  else ofRatio negative (digits * tenPow exponent.toNat) (tenPow (-exponent).toNat)

/-- Compare `a * 10 ^ i` with `n * 2 ^ j`. -/
def compareScaled (a : Nat) (i : Int) (n : Nat) (j : Int) : Ordering :=
  compare (a * tenPow i.toNat * twoPow (-j).toNat) (n * twoPow j.toNat * tenPow (-i).toNat)

/-- Whether `digits * 10 ^ place` lies among the reals that round to
    `significand * 2 ^ exponent`. The gap below a power of two is half the gap
    above it, except at the smallest exponent. -/
def readsBack (significand : Nat) (exponent : Int) (digits : Nat) (place : Int) : Bool :=
  let narrow := significand = twoPow 52 ∧ exponent > -1074
  let low := if narrow then 4 * significand - 1 else 4 * significand - 2
  let closed := significand % 2 = 0
  let above := compareScaled digits place low (exponent - 2)
  let below := compareScaled digits place (4 * significand + 2) (exponent - 2)
  (above == .gt || (closed && above == .eq)) && (below == .lt || (closed && below == .eq))

/-- The decimal place in front of the leading digit of a positive fraction:
    the least `p` with the fraction below `10 ^ p`. -/
def leadingPlace (num den : Nat) : Int :=
  let guess : Int := (numeral num).length - (numeral den).length
  if num * tenPow (-guess).toNat < den * tenPow guess.toNat then guess else guess + 1

/-- Of the two decimals around `num / den` with the last digit at a given
    place, the nearer one of those that read back. -/
def neighbour? (significand : Nat) (exponent : Int) (num den : Nat) (place : Int) : Option Nat :=
  let n := num * tenPow (-place).toNat
  let d := den * tenPow place.toNat
  let low := n / d
  let fits (digits : Nat) := readsBack significand exponent digits place
  match fits low, fits (low + 1) with
  | true, true => some (roundQuotient n d)
  | true, false => some low
  | false, true => some (low + 1)
  | false, false => none

/-- The shortest decimal that reads back to a positive finite number, as its
    digits and the place in front of the first one. -/
def shortest (significand : Nat) (exponent : Int) : Nat × Int :=
  let (num, den) := scaled significand 1 exponent
  let lead := leadingPlace num den
  let candidate := (List.range 17).findSome? fun (k : Nat) =>
    let place := lead - (k + 1)
    (neighbour? significand exponent num den place).map fun digits => (digits, place)
  match candidate with
  | some (digits, place) => (digits, (numeral digits).length + place)
  | none => (significand, (numeral significand).length)

/-- How a finite number is laid out: positionally when its leading digit
    stands at most sixteen places before the point and at most four after it,
    otherwise with an exponent of at least two digits. A positional number
    always shows a digit on both sides of the point. -/
def layout (digits : String) (lead : Int) : String :=
  let size : Int := digits.length
  if lead ≤ -4 ∨ lead > 16 then
    let fraction := (digits.drop 1).toString
    let power := numeral (lead - 1).natAbs
    (digits.take 1).toString ++ (if fraction = "" then "" else "." ++ fraction)
      ++ "e" ++ (if lead - 1 < 0 then "-" else "+")
      ++ (if power.length < 2 then "0" ++ power else power)
  else if lead ≤ 0 then
    "0." ++ String.ofList (List.replicate (-lead).toNat '0') ++ digits
  else if lead ≥ size then
    digits ++ String.ofList (List.replicate (lead - size).toNat '0') ++ ".0"
  else
    (digits.take lead.toNat).toString ++ "." ++ (digits.drop lead.toNat).toString

/-- Digits without the zeros at their end. -/
def stripZeros (digits : String) : String :=
  String.ofList (digits.toList.reverse.dropWhile (· = '0')).reverse

/-- The text of a number: the shortest decimal that reads back to it. -/
def text : Binary64 → String
  | .notANumber => "nan"
  | .infinite negative => if negative then "-inf" else "inf"
  | .finite negative significand exponent =>
    let unsigned :=
      if significand = 0 then "0.0"
      else
        let (digits, lead) := shortest significand exponent
        layout (stripZeros (numeral digits)) lead
    if negative then "-" ++ unsigned else unsigned

end Binary64

/-- The text of a decimal numeral with grouping underscores removed, when
    every underscore stands between two digits. -/
def ungroup? : List Char → Option (List Char)
  | [] => some []
  | '_' :: _ => none
  | c :: '_' :: d :: cs =>
    if Text.isDigit c && Text.isDigit d then (ungroup? (d :: cs)).map (c :: ·) else none
  | c :: cs => (ungroup? cs).map (c :: ·)

/-- The digits at the start of a text, and the rest. -/
def spanDigits (cs : List Char) : List Char × List Char :=
  (cs.takeWhile Text.isDigit, cs.dropWhile Text.isDigit)

/-- The exponent at the end of a decimal: nothing, or `e`, an optional sign
    and at least one digit. -/
def readExponent? : List Char → Option Int
  | [] => some 0
  | c :: cs =>
    if c = 'e' ∨ c = 'E' then
      let (negative, body) := takeSign cs
      let (digits, rest) := spanDigits body
      if digits.isEmpty ∨ !rest.isEmpty then none
      else some (signed negative (Text.decimalOf digits))
    else none

/-- The number that an unsigned decimal spells: digits with an optional point
    among them, and an optional exponent. -/
def readUnsigned? (negative : Bool) (cs : List Char) : Option Binary64 :=
  let (whole, rest) := spanDigits cs
  let (fraction, rest) := match rest with
    | '.' :: rest => spanDigits rest
    | rest => ([], rest)
  if whole.isEmpty ∧ fraction.isEmpty then none
  else (readExponent? rest).map fun exponent =>
    Binary64.ofDecimal negative (Text.decimalOf (whole ++ fraction)) (exponent - fraction.length)

/-- The number a text spells: a decimal, or one of the words for infinity and
    for no number in any case, with blanks around it. -/
def readBinary64 (text : String) : Option Binary64 :=
  let (negative, body) := takeSign (Text.trim Text.isNumberBlank text.toList)
  let word := String.ofList (body.map Char.toLower)
  if word = "inf" ∨ word = "infinity" then some (.infinite negative)
  else if word = "nan" then some .notANumber
  else (ungroup? body).bind (readUnsigned? negative)

end SmtSession
