/-
**Quoted text.**

Messages show a piece of source text between quotes, with every character that would not print as
itself written as an escape:

* the quote is the single one, unless the text has a single quote and no double quote;
* the quote in use and the backslash are written with a backslash before them;
* tabulator, line feed and carriage return have short escapes, any other unprintable character is
  written by its code point in two, four or eight hexadecimal digits.
-/

import ByNeed.Text.Unprintable

namespace ByNeed.Text

/-- The last `width` hexadecimal digits of a number. -/
def hexDigits : Nat → Nat → List Char
  | 0, _ => []
  | width + 1, n => hexDigits width (n / 16) ++ [Nat.digitChar (n % 16)]

/-- The escape of a character by its code point. -/
def codeEscape (c : Char) : List Char :=
  if c.toNat < 0x100 then '\\' :: 'x' :: hexDigits 2 c.toNat
  else if c.toNat < 0x10000 then '\\' :: 'u' :: hexDigits 4 c.toNat
  else '\\' :: 'U' :: hexDigits 8 c.toNat

/-- How a character is written between the quotes `quote`. -/
def escaped (quote c : Char) : List Char :=
  if c = quote ∨ c = '\\' then ['\\', c]
  else if c = '\t' then ['\\', 't']
  else if c = '\n' then ['\\', 'n']
  else if c = '\r' then ['\\', 'r']
  else if isUnprintable c then codeEscape c
  else [c]

/-- The quote a text is written between. -/
def quoteFor (text : List Char) : Char :=
  if text.contains '\x27' && !text.contains '\x22' then '\x22' else '\x27'

/-- A text between quotes. -/
def quoted (text : List Char) : List Char :=
  quoteFor text :: (text.flatMap (escaped (quoteFor text)) ++ [quoteFor text])

end ByNeed.Text
