/-!
# Decimal Digits

Integers in solver replies and in the operands of indexed operators may be
written with the decimal digits of any script. Every script lays its ten
digits out as one ascending run of code points, so the class is given by its
zeros alone: the digit a character stands for is its distance from the zero
of its run.

## Main definitions

* `digitZeros`: The code points of the zeros.
* `digitValue?`: The digit a character stands for, if it is one.
* `isDigit`: The characters that stand for a digit.
* `natOfDigits`: The number that a list of digits spells in a base.
* `decimalOf`: The number that a run of decimal digits spells.
-/

namespace SmtSession

namespace Text

/-- The code points of the zeros of all scripts, in ascending order. -/
def digitZeros : List Nat :=
  [0x30, 0x660, 0x6F0, 0x7C0, 0x966, 0x9E6, 0xA66, 0xAE6, 0xB66, 0xBE6,
   0xC66, 0xCE6, 0xD66, 0xDE6, 0xE50, 0xED0, 0xF20, 0x1040, 0x1090, 0x17E0,
   0x1810, 0x1946, 0x19D0, 0x1A80, 0x1A90, 0x1B50, 0x1BB0, 0x1C40, 0x1C50, 0xA620,
   0xA8D0, 0xA900, 0xA9D0, 0xA9F0, 0xAA50, 0xABF0, 0xFF10, 0x104A0, 0x10D30, 0x11066,
   0x110F0, 0x11136, 0x111D0, 0x112F0, 0x11450, 0x114D0, 0x11650, 0x116C0, 0x11730, 0x118E0,
   0x11950, 0x11C50, 0x11D50, 0x11DA0, 0x16A60, 0x16AC0, 0x16B50, 0x1D7CE, 0x1D7D8, 0x1D7E2,
   0x1D7EC, 0x1D7F6, 0x1E140, 0x1E2F0, 0x1E950, 0x1FBF0]

/-- The digit a character stands for: its distance from the zero of its run,
    when that is below ten. -/
def digitValue? (c : Char) : Option Nat :=
  (digitZeros.find? fun z => z ≤ c.toNat && c.toNat < z + 10).map (c.toNat - ·)

/-- The characters that stand for a decimal digit in some script. -/
def isDigit (c : Char) : Bool :=
  (digitValue? c).isSome

/-- The number that digits spell in a base, most significant digit first. -/
def natOfDigits (base : Nat) (digits : List Nat) : Nat :=
  digits.foldl (fun value digit => value * base + digit) 0

/-- The number that a run of decimal digits spells. -/
def decimalOf (cs : List Char) : Nat :=
  natOfDigits 10 (cs.filterMap digitValue?)

end Text

end SmtSession
