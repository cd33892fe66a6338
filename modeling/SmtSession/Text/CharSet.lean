/-!
# Sets of Characters

A class of characters that some standard fixes is data: a list of inclusive
ranges of code points. Membership is the one operation.

## Main definitions

* `inRanges`: Membership of a character in a list of ranges.
-/

namespace SmtSession

namespace Text

/-- A character belongs to a list of inclusive ranges when its code point lies
    in one of them. -/
def inRanges (ranges : List (Nat × Nat)) (c : Char) : Bool :=
  ranges.any fun range => range.1 ≤ c.toNat && c.toNat ≤ range.2

end Text

end SmtSession
