/-
**Tokens and their text.**

Tokens are written as their words with a space between them. Reading the text gives the tokens back,
if each of them is spelled as a word that is read as the token (`Token.Legible`).

* `words_intercalate`: the words of a text that is made of words and spaces;
* `Numeral.ofChars?_chars`: a numeral that has digits is read back;
* `legible_ofInt`: the shortest numeral of an integer is legible;
* `lex_unlex`: **the text of legible tokens has these tokens**.
-/

import ByNeed.Token

namespace ByNeed

namespace Text

variable {separates : Char → Bool} {word : List Char}

/-! ### Words -/

/-- A run without separating characters is one piece. -/
theorem pieces_of_unbroken (unbroken : ∀ c ∈ word, separates c = false) :
    pieces separates word = [word] := by
  induction word with
  | nil => rfl
  | cons c rest ih =>
    rw [pieces_cons_of_neg (unbroken c List.mem_cons_self),
      ih fun d member => unbroken d (List.mem_cons_of_mem c member)]
    rfl

/-- The first separating character ends the first piece. -/
theorem pieces_append_cons {c : Char} (unbroken : ∀ d ∈ word, separates d = false)
    (separating : separates c = true) (text : List Char) :
    pieces separates (word ++ c :: text) = word :: pieces separates text := by
  induction word with
  | nil => exact pieces_cons_of_pos separating text
  | cons d rest ih =>
    rw [List.cons_append, pieces_cons_of_neg (unbroken d List.mem_cons_self),
      ih fun e member => unbroken e (List.mem_cons_of_mem d member)]
    rfl

/-- **The words of a text that is made of words and spaces.** -/
theorem words_intercalate {items : List (List Char)}
    (proper : ∀ word ∈ items, word ≠ [] ∧ ∀ c ∈ word, isBlank c = false) :
    words (List.intercalate [' '] items) = items := by
  induction items with
  | nil => rfl
  | cons word rest ih =>
    obtain ⟨nonempty, unbroken⟩ := proper word List.mem_cons_self
    have later := ih fun other member => proper other (List.mem_cons_of_mem word member)
    have kept : ∀ runs : List (List Char), (word :: runs).filter (fun run => !run.isEmpty) =
        word :: runs.filter fun run => !run.isEmpty := fun runs =>
      List.filter_cons_of_pos (by simpa using nonempty)
    cases rest with
    | nil =>
      rw [List.intercalate_singleton, words, pieces_of_unbroken unbroken, kept]
      rfl
    | cons next rest =>
      rw [List.intercalate_cons_cons, List.append_assoc, List.singleton_append, words,
        pieces_append_cons unbroken (by decide), kept]
      exact congrArg (word :: ·) later

theorem unbroken_of_all (all : word.all (fun c => !isBlank c) = true) :
    ∀ c ∈ word, isBlank c = false := by
  intro c member
  simpa using List.all_eq_true.mp all c member

/-- A digit is not blank. -/
theorem isBlank_of_isDigit {c : Char} (digit : c.isDigit = true) : isBlank c = false := by
  have low : 48 ≤ c.toNat ∧ c.toNat ≤ 57 := by
    simp only [Char.isDigit, ge_iff_le, Bool.and_eq_true, decide_eq_true_eq,
      UInt32.le_iff_toNat_le] at digit
    exact digit
  simp only [isBlank, inSpans, blankSpans, List.any_cons, List.any_nil, Bool.or_false,
    Bool.or_eq_false_iff, Bool.and_eq_false_iff, decide_eq_false_iff_not]
  omega

end Text

/-! ### Numerals -/

namespace Numeral

variable {numeral : Numeral}

theorem isDigit_of_mem {digits : List Char} (run : isDigitRun digits = true) {c : Char}
    (member : c ∈ digits) : c.isDigit = true := by
  simp only [isDigitRun, Bool.and_eq_true, List.all_eq_true] at run
  exact run.2 c member

theorem isDigitRun_ofInt (n : Int) : isDigitRun (ofInt n).digits = true := by
  have all : ∀ c ∈ Nat.toDigits 10 n.natAbs, c.isDigit = true := fun c member =>
    Nat.isDigit_of_mem_toDigits (by decide) (Nat.le_refl 10) member
  simpa [isDigitRun, ofInt, Nat.toDigits_ne_nil] using all

/-- A character of a numeral is the minus sign or a digit. -/
theorem mem_chars (run : isDigitRun numeral.digits = true) {c : Char} (member : c ∈ numeral.chars) :
    c = '-' ∨ c.isDigit = true := by
  unfold chars at member
  split at member
  · rcases List.mem_cons.mp member with minus | digit
    · exact Or.inl minus
    · exact Or.inr (isDigit_of_mem run digit)
  · exact Or.inr (isDigit_of_mem run member)

theorem chars_ne_nil (run : isDigitRun numeral.digits = true) : numeral.chars ≠ [] := by
  unfold chars
  split
  · exact List.cons_ne_nil _ _
  · intro none
    rw [none] at run
    cases run

/-- **A numeral that has digits is read back.** -/
theorem ofChars?_chars (run : isDigitRun numeral.digits = true) :
    ofChars? numeral.chars = some numeral := by
  obtain ⟨negative, digits⟩ := numeral
  cases negative with
  | true => simp [chars, ofChars?, run]
  | false =>
    have unsigned : ∀ rest, digits ≠ '-' :: rest := by
      rintro rest rfl
      have digit := isDigit_of_mem run (c := '-') List.mem_cons_self
      revert digit
      decide
    show ofChars? digits = _
    unfold ofChars?
    split
    · next rest => exact (unsigned rest rfl).elim
    · exact if_pos run

end Numeral

/-! ### Tokens -/

/-- **A token is legible**: its text is one word, which is read as the token. -/
structure Token.Legible (token : Token) : Prop where
  nonempty : token.chars ≠ []
  unbroken : ∀ c ∈ token.chars, Text.isBlank c = false
  reads : Token.ofWord token.chars = token

theorem legible_ap : Token.ap.Legible :=
  ⟨by decide, Text.unbroken_of_all (by decide), by decide⟩

/-- The shortest numeral of an integer is legible. -/
theorem legible_ofInt (n : Int) : (Token.number (.ofInt n)).Legible := by
  have run := Numeral.isDigitRun_ofInt n
  refine ⟨Numeral.chars_ne_nil run, fun c member => ?_, ?_⟩
  · rcases Numeral.mem_chars run member with rfl | digit
    · decide
    · exact Text.isBlank_of_isDigit digit
  · have other : (Numeral.ofInt n).chars ≠ Token.apWord := by
      intro same
      have letter : 'a' ∈ (Numeral.ofInt n).chars := by
        rw [same]
        decide
      have never := Numeral.mem_chars run letter
      revert never
      decide
    show Token.ofWord (Numeral.ofInt n).chars = _
    unfold Token.ofWord
    rw [if_neg other, Numeral.ofChars?_chars run]

/-- **The text of legible tokens has these tokens.** -/
theorem lex_unlex {tokens : List Token} (legible : ∀ token ∈ tokens, token.Legible) :
    lex (unlex tokens) = tokens := by
  have proper : ∀ word ∈ tokens.map Token.chars, word ≠ [] ∧ ∀ c ∈ word, Text.isBlank c = false := by
    intro word member
    obtain ⟨token, among, rfl⟩ := List.mem_map.mp member
    exact ⟨(legible token among).nonempty, (legible token among).unbroken⟩
  rw [lex, unlex, String.toList_ofList, Text.words_intercalate proper, List.map_map]
  calc tokens.map (Token.ofWord ∘ Token.chars)
      = tokens.map id := List.map_congr_left fun token member => (legible token member).reads
    _ = tokens := List.map_id tokens

end ByNeed
