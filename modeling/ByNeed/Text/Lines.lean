/-
**Lines.**

A text is cut into lines at line breaks. A carriage return with the line feed after it is one break,
and a break at the end of the text starts no further line:

* `lines`: the lines of a text, without their breaks;
* `lines_lineFeed`: a line feed ends the line it starts.
-/

import ByNeed.Text.Blank

namespace ByNeed.Text

/-- The code points of the line breaks, in order. -/
def breakSpans : List Span :=
  [⟨0x0A, 0x0D⟩, ⟨0x1C, 0x1E⟩, ⟨0x85, 0x85⟩, ⟨0x2028, 0x2029⟩]

/-- Line breaks end lines. -/
def isBreak (c : Char) : Bool :=
  inSpans breakSpans c

/-- The lines of a text, without their breaks. -/
def lines : List Char → List (List Char)
  | [] => []
  | '\r' :: '\n' :: rest => [] :: lines rest
  | c :: rest => if isBreak c then [] :: lines rest else joinFirst c (lines rest)

/-- A line feed ends the line it starts. -/
theorem lines_lineFeed (rest : List Char) : lines ('\n' :: rest) = [] :: lines rest := by
  simp [lines, show isBreak '\n' = true from by decide]

end ByNeed.Text
