import SmtSession.Text.CharSet

/-!
# Blanks

Two sets of characters count as blank. Replies of solvers, names of solvers
and S-expressions are cut at the wide set, which holds every separator of the
character standard. Numbers tolerate a smaller set around them: the four
information separators U+001C to U+001F are blank between words, but a number
that touches one is no number.

## Main definitions

* `isBlank`: The characters that separate words.
* `isNumberBlank`: The characters that may surround a number.
* `trim`: A text without the characters of a set at its ends.

## Theorems

* `isBlank_of_isNumberBlank`: What may surround a number separates words.
* `trim_eq_self`: There may be nothing to take away.
-/

namespace SmtSession

namespace Text

/-- The inclusive ranges of code points that separate words. -/
def blankRanges : List (Nat × Nat) :=
  [(0x09, 0x0D), (0x1C, 0x20), (0x85, 0x85), (0xA0, 0xA0), (0x1680, 0x1680), (0x2000, 0x200A),
   (0x2028, 0x2029), (0x202F, 0x202F), (0x205F, 0x205F), (0x3000, 0x3000)]

/-- The characters that separate words. -/
def isBlank (c : Char) : Bool :=
  inRanges blankRanges c

/-- The characters that may surround a number: the blanks without the
    information separators U+001C to U+001F. -/
def isNumberBlank (c : Char) : Bool :=
  isBlank c && !inRanges [(0x1C, 0x1F)] c

theorem isBlank_of_isNumberBlank {c : Char} (h : isNumberBlank c = true) : isBlank c = true := by
  rw [isNumberBlank, Bool.and_eq_true] at h
  exact h.1

/-- A text without the characters of a set at its ends. -/
def trim (strip : Char → Bool) (cs : List Char) : List Char :=
  ((cs.dropWhile strip).reverse.dropWhile strip).reverse

theorem trim_eq_self (strip : Char → Bool) (cs : List Char)
    (hfirst : ∀ c ∈ cs.head?, strip c = false) (hlast : ∀ c ∈ cs.getLast?, strip c = false) :
    trim strip cs = cs := by
  have hdrop (l : List Char) (h : ∀ c ∈ l.head?, strip c = false) : l.dropWhile strip = l := by
    cases l with
    | nil => rfl
    | cons c l => exact List.dropWhile_cons_of_neg (by simp [h c rfl])
  rw [trim, hdrop cs hfirst, hdrop cs.reverse (by rwa [List.head?_reverse]), List.reverse_reverse]

end Text

end SmtSession
