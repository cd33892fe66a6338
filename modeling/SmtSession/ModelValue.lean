import SmtSession.Fault
import SmtSession.Text.Blank

/-!
# Values in Replies

The values that a solver reports for the terms of a query, and the constants
that they spell.

The values are found by a scan, not by reading the reply as a tree: after the
first line, every opening parenthesis starts a pair, the value starts after
the next space and ends before the next closing parenthesis. A value with
parentheses of its own comes out cut short, and a negative integer is the one
such value that is understood anyway.

## Main definitions

* `afterFirst`: The part of a text after the first occurrence of a character.
* `scanPairs`: The values of the pairs in a text.
* `reportedValues`: The values in a reply.
* `ModelValue`: What a value can spell.
* `ModelValue.decode`: What a value spells.

## Theorems

* `length_scanRest_lt`: A pair takes at least its opening parenthesis, so the
  scan ends.
-/

namespace SmtSession

/-- The part of a text after the first occurrence of a character, empty when
    there is none. -/
def afterFirst (mark : Char) (cs : List Char) : List Char :=
  (cs.dropWhile (· ≠ mark)).tail

/-- What follows the value of a pair whose opening parenthesis was just
    passed. -/
def scanRest (cs : List Char) : List Char :=
  (afterFirst ' ' cs).dropWhile (· ≠ ')')

/-- The value of a pair whose opening parenthesis was just passed. -/
def scanValue (cs : List Char) : List Char :=
  (afterFirst ' ' cs).takeWhile (· ≠ ')')

theorem length_scanRest_le (cs : List Char) : (scanRest cs).length ≤ cs.length := by
  have drop (p : Char → Bool) (l : List Char) : (l.dropWhile p).length ≤ l.length :=
    (List.dropWhile_suffix p).length_le
  have tail (l : List Char) : l.tail.length ≤ l.length := by simp
  exact Nat.le_trans (drop _ _) (Nat.le_trans (tail _) (drop _ _))

/-- The values of the pairs in a text, in order. -/
def scanPairs (cs : List Char) : List (List Char) :=
  match _h : cs.dropWhile (· ≠ '(') with
  | [] => []
  | _ :: body => scanValue body :: scanPairs (scanRest body)
termination_by cs.length
decreasing_by
  have hle : (cs.dropWhile (· ≠ '(')).length ≤ cs.length := (List.dropWhile_suffix _).length_le
  have hrest := length_scanRest_le body
  rw [_h, List.length_cons] at hle
  omega

/-- The values in a reply, whose first line is the verdict. -/
def reportedValues (reply : String) : List String :=
  (scanPairs (afterFirst '\n' reply.toList)).map String.ofList

/-- What a reported value can spell. -/
inductive ModelValue where
  | bool (value : Bool)
  | int (value : Int)
  /-- None of the literals that are understood; the value as it was reported. -/
  | raw (text : String)
deriving Repr, DecidableEq

/-- The value of a hexadecimal digit of either case. -/
def hexDigit? (c : Char) : Option Nat :=
  if '0' ≤ c ∧ c ≤ '9' then some (c.toNat - 48)
  else if 'a' ≤ c ∧ c ≤ 'f' then some (c.toNat - 87)
  else if 'A' ≤ c ∧ c ≤ 'F' then some (c.toNat - 55)
  else none

/-- The value of a binary digit. -/
def binaryDigit? (c : Char) : Option Nat :=
  if c = '0' then some 0 else if c = '1' then some 1 else none

/-- The number that one or more digits spell in a base. -/
def positional? (base : Nat) (digit? : Char → Option Nat) (cs : List Char) : Option Nat :=
  if cs.isEmpty then none else (cs.mapM digit?).map (Text.natOfDigits base)

/-- The digits of a decimal numeral with an optional minus sign, and whether
    the sign is there. -/
def plainNumeral? (cs : List Char) : Option (Bool × List Char) :=
  let (negative, digits) := match cs with
    | '-' :: digits => (true, digits)
    | digits => (false, digits)
  if !digits.isEmpty && digits.all Text.isDigit then some (negative, digits) else none

/-- The digits in a negative numeral that is written as an application of the
    minus sign, with or without its closing parenthesis. -/
def appliedNumeral? (cs : List Char) : Option (List Char) :=
  match cs with
  | '(' :: cs =>
    match cs.dropWhile Text.isBlank with
    | '-' :: c :: cs =>
      let body := cs.dropWhile Text.isBlank
      let digits := body.takeWhile Text.isDigit
      let rest := (body.dropWhile Text.isDigit).dropWhile Text.isBlank
      if Text.isBlank c && !digits.isEmpty && (rest = [] || rest = [')']) then some digits
      else none
    | _ => none
  | _ => none

/-- The number that a bit vector literal counts. -/
def bitVecLiteral? : List Char → Option Nat
  | '#' :: 'b' :: digits => positional? 2 binaryDigit? digits
  | '#' :: 'x' :: digits => positional? 16 hexDigit? digits
  | _ => none

namespace ModelValue

/-- What a value without blanks around it spells, or nothing when it is no
    literal. -/
def decodeStripped (cs : List Char) : Except NumeralFault (Option ModelValue) :=
  if cs = "true".toList then .ok (some (.bool true))
  else if cs = "false".toList then .ok (some (.bool false))
  else match bitVecLiteral? cs with
    | some n => .ok (some (.int n))
    | none =>
      match plainNumeral? cs with
      | some (negative, digits) => do
        let n ← readDecimal digits
        return some (.int (signed negative n))
      | none =>
        match appliedNumeral? cs with
        | some digits => do
          let n ← readDecimal digits
          return some (.int (-n))
        | none => .ok none

/-- What a reported value spells. -/
def decode (value : String) : Except Fault ModelValue :=
  orFault .numeral ((decodeStripped (Text.trim Text.isBlank value.toList)).map
    (·.getD (.raw value)))

end ModelValue

end SmtSession
