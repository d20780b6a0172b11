/-
**Blank characters and words.**

Source text is cut at blanks. The blanks are the Unicode characters of white space together with the
four information separators (`blankSpans`), and the words of a text are its longest runs of other
characters:

* `pieces`: the runs between the characters of a class, empty runs included;
* `words`: the non-empty runs between blanks;
* `pieces_cons_of_pos`, `pieces_cons_of_neg`: one character either ends a run or joins the first run
  of the rest.
-/

namespace ByNeed.Text

/-! ### Classes of characters -/

/-- The code points from `first` to `last`. -/
structure Span where
  first : Nat
  last : Nat

/-- A character lies in one of the spans. -/
def inSpans (spans : List Span) (c : Char) : Bool :=
  spans.any fun span => span.first ≤ c.toNat && c.toNat ≤ span.last

/-- The code points of the blanks, in order. -/
def blankSpans : List Span :=
  [⟨0x09, 0x0D⟩, ⟨0x1C, 0x20⟩, ⟨0x85, 0x85⟩, ⟨0xA0, 0xA0⟩, ⟨0x1680, 0x1680⟩, ⟨0x2000, 0x200A⟩,
    ⟨0x2028, 0x2029⟩, ⟨0x202F, 0x202F⟩, ⟨0x205F, 0x205F⟩, ⟨0x3000, 0x3000⟩]

/-- Blanks separate words. -/
def isBlank (c : Char) : Bool :=
  inSpans blankSpans c

/-! ### Words -/

/-- Put a character in front of the first run. -/
def joinFirst (c : Char) : List (List Char) → List (List Char)
  | [] => [[c]]
  | run :: runs => (c :: run) :: runs

/-- The runs of a text between the characters of a class, empty runs included. -/
def pieces (separates : Char → Bool) (text : List Char) : List (List Char) :=
  text.foldr (fun c runs => if separates c then [] :: runs else joinFirst c runs) [[]]

/-- The words of a text: its non-empty runs between blanks, in order. -/
def words (text : List Char) : List (List Char) :=
  (pieces isBlank text).filter fun run => !run.isEmpty

@[simp]
theorem pieces_nil (separates : Char → Bool) : pieces separates [] = [[]] := rfl

/-- A separating character ends a run. -/
theorem pieces_cons_of_pos {separates : Char → Bool} {c : Char} (separating : separates c = true)
    (text : List Char) : pieces separates (c :: text) = [] :: pieces separates text := by
  simp [pieces, separating]

/-- Any other character joins the first run of the rest. -/
theorem pieces_cons_of_neg {separates : Char → Bool} {c : Char} (joining : separates c = false)
    (text : List Char) :
    pieces separates (c :: text) = joinFirst c (pieces separates text) := by
  simp [pieces, joining]

end ByNeed.Text
