
/-!
# Words of a Command Line

A backend is named by a command line, cut into words the way a shell does.
Space, tabulator, line feed and carriage return separate words. Between
single quotes every character stands for itself. Between double quotes a
backslash takes its special meaning from a following double quote or
backslash only. Outside quotes a backslash makes the next character an
ordinary one. Quotes join the word around them, and a pair of quotes with
nothing inside is a word too.

## Main definitions

* `WordFault`: What keeps a text from being a command line.
* `CutPlace`: Where between the words the cutting stands.
* `cutWords`: The words of the rest of a text, from a place in it.
* `words`: The words of a command line.
-/

namespace SmtSession

namespace Text

/-- What keeps a text from being a command line. -/
inductive WordFault where
  /-- A quote is opened and never closed. -/
  | openQuote
  /-- A backslash ends the text. -/
  | danglingEscape
deriving Repr, DecidableEq

/-- The characters that separate words. -/
def isWordSeparator (c : Char) : Bool :=
  c = ' ' || c = '\t' || c = '\n' || c = '\r'

/-- Where between the words the cutting stands. -/
inductive CutPlace where
  /-- Between two words. -/
  | between
  /-- In a word, outside quotes. -/
  | bare
  /-- In a word, between quotes of the given kind. -/
  | quote (mark : Char)
  /-- In a word outside quotes, after a backslash. -/
  | escape
  /-- In a word between double quotes, after a backslash. -/
  | quotedEscape
deriving Repr, DecidableEq

/-- The place after a character that starts or continues a word outside
    quotes, with the characters it adds to the word. -/
def CutPlace.ofBare (c : Char) : CutPlace × List Char :=
  if c = '\\' then (.escape, [])
  else if c = '"' ∨ c = '\'' then (.quote c, [])
  else (.bare, [c])

/-- The words of the rest of a text, when the cutting stands at a given place
    and `word` is what it has of the word under way. -/
def cutWords : CutPlace → List Char → List Char → Except WordFault (List (List Char))
  | .between, _, [] => .ok []
  | .bare, word, [] => .ok [word]
  | .quote _, _, [] => .error .openQuote
  | .escape, _, [] => .error .danglingEscape
  | .quotedEscape, _, [] => .error .danglingEscape
  | .between, _, c :: cs =>
    if isWordSeparator c then cutWords .between [] cs
    else cutWords (CutPlace.ofBare c).1 (CutPlace.ofBare c).2 cs
  | .bare, word, c :: cs =>
    if isWordSeparator c then (cutWords .between [] cs).map (word :: ·)
    else cutWords (CutPlace.ofBare c).1 (word ++ (CutPlace.ofBare c).2) cs
  | .quote mark, word, c :: cs =>
    if c = mark then cutWords .bare word cs
    else if mark = '"' ∧ c = '\\' then cutWords .quotedEscape word cs
    else cutWords (.quote mark) (word ++ [c]) cs
  | .escape, word, c :: cs => cutWords .bare (word ++ [c]) cs
  | .quotedEscape, word, c :: cs =>
    if c = '"' ∨ c = '\\' then cutWords (.quote '"') (word ++ [c]) cs
    else cutWords (.quote '"') (word ++ ['\\', c]) cs

/-- The words of a command line. -/
def words (text : String) : Except WordFault (List String) :=
  (cutWords .between [] text.toList).map (·.map String.ofList)

end Text

end SmtSession
