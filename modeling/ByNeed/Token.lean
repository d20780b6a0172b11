/-
**Tokens.**

Source text is a sequence of words, and each word is one token: the word `ap`, which announces an
application, a numeral, or a symbol, which is any other word.

* `lex`: the tokens of a text;
* `Token.chars_ofWord`: a token is spelled as the word it came from.
-/

import ByNeed.Numeral
import ByNeed.Text.Blank

namespace ByNeed

/-- One word of source text. -/
inductive Token
  | ap
  | number (numeral : Numeral)
  | symbol (name : String)
deriving DecidableEq

namespace Token

/-- The word that announces an application. -/
def apWord : List Char := ['a', 'p']

/-- The token that a word is. -/
def ofWord (word : List Char) : Token :=
  if word = apWord then .ap
  else match Numeral.ofChars? word with
    | some numeral => .number numeral
    | none => .symbol (String.ofList word)

/-- The characters of a token. -/
def chars : Token → List Char
  | .ap => apWord
  | .number numeral => numeral.chars
  | .symbol name => name.toList

/-- The text of a token. -/
def text (token : Token) : String :=
  String.ofList token.chars

end Token

/-- The tokens of a text, in order. -/
def lex (code : String) : List Token :=
  (Text.words code.toList).map Token.ofWord

/-- A text with the given tokens: their words with a space between them. -/
def unlex (tokens : List Token) : String :=
  String.ofList (List.intercalate [' '] (tokens.map Token.chars))

theorem Numeral.chars_of_ofChars? {word : List Char} {numeral : Numeral}
    (spelled : Numeral.ofChars? word = some numeral) : numeral.chars = word := by
  unfold Numeral.ofChars? at spelled
  split at spelled
  · split at spelled
    · cases spelled
      rfl
    · cases spelled
  · split at spelled
    · cases spelled
      rfl
    · cases spelled

/-- A token is spelled as the word it came from. -/
theorem Token.chars_ofWord (word : List Char) : (Token.ofWord word).chars = word := by
  unfold Token.ofWord
  split
  · next isAp => exact isAp.symm
  · split
    · next numeral spelled => exact Numeral.chars_of_ofChars? spelled
    · exact String.toList_ofList

end ByNeed
