import SmtSession.Text.Printable

/-!
# Quoted Text in Messages

A message names the text it complains about between quotes, written so that
the text can be read back from the message. Single quotes are used unless the
text holds a single quote and no double quote. The quote in use and the
backslash get a backslash; tabulator, line feed and carriage return have
letters of their own; any other character without a visible form is written
as its code point, with two, four or eight hexadecimal digits.

## Main definitions

* `quoteFor`: The quote that surrounds a text.
* `escaped`: The written form of one character inside a quote.
* `quoted`: The written form of a text.
-/

namespace SmtSession

namespace Text

/-- The quote that surrounds a text: double exactly when that saves escaping
    single quotes. -/
def quoteFor (cs : List Char) : Char :=
  if cs.contains '\'' && !cs.contains '"' then '"' else '\''

/-- A code point in lower-case hexadecimal, padded with zeros on the left to a
    given width. -/
def hexPadded (width n : Nat) : List Char :=
  let digits := Nat.toDigits 16 n
  List.replicate (width - digits.length) '0' ++ digits

/-- The written form of one character inside a quote. -/
def escaped (quote c : Char) : List Char :=
  if c = quote ∨ c = '\\' then ['\\', c]
  else if c = '\t' then ['\\', 't']
  else if c = '\n' then ['\\', 'n']
  else if c = '\r' then ['\\', 'r']
  else if isPrintable c then [c]
  else if c.toNat < 0x100 then '\\' :: 'x' :: hexPadded 2 c.toNat
  else if c.toNat < 0x10000 then '\\' :: 'u' :: hexPadded 4 c.toNat
  else '\\' :: 'U' :: hexPadded 8 c.toNat

/-- The written form of a text between its quotes. -/
def quoted (text : String) : String :=
  let cs := text.toList
  let quote := quoteFor cs
  String.ofList (quote :: cs.flatMap (escaped quote) ++ [quote])

end Text

end SmtSession
