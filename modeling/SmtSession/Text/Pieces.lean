/-!
# Pieces Between Separators

A list of names is written with one character between the names, and so are
the steps of a path. Cutting such a text keeps the empty pieces: a text with
`n` separators has `n + 1` pieces, and the caller decides which of them count.

## Main definitions

* `pieces`: The pieces of a text between the occurrences of a separator.
* `joined`: Pieces written one after the other with a text between them.

## Theorems

* `pieces_ne_nil`: Even the empty text has a piece.
* `length_pieces`: There is one piece more than there are separators.
-/

namespace SmtSession

namespace Text

/-- The pieces of a text between the occurrences of a separator. -/
def pieces (separator : Char) : List Char → List (List Char)
  | [] => [[]]
  | c :: cs =>
    if c = separator then [] :: pieces separator cs
    else match pieces separator cs with
      | [] => [[c]]
      | piece :: rest => (c :: piece) :: rest

theorem pieces_ne_nil (separator : Char) (cs : List Char) : pieces separator cs ≠ [] := by
  cases cs with
  | nil => simp [pieces]
  | cons c cs =>
    rw [pieces]
    split
    · simp
    · split <;> simp

theorem length_pieces (separator : Char) (cs : List Char) :
    (pieces separator cs).length = cs.count separator + 1 := by
  induction cs with
  | nil => simp [pieces]
  | cons c cs ih =>
    rw [pieces]
    split
    · next h => simp [h, ih]
    · next h =>
      split
      · next hp => exact absurd hp (pieces_ne_nil separator cs)
      · next piece rest hp =>
        rw [hp] at ih
        simpa [h] using ih

/-- Pieces written one after the other with a text between them. -/
def joined (between : String) : List String → String
  | [] => ""
  | [piece] => piece
  | piece :: rest => piece ++ between ++ joined between rest

end Text

end SmtSession
