/-
**Expressions.**

An expression is a numeral, a symbol, or an application of two expressions. It is listed in prefix
order: the word that announces an application, then the operator, then the operand.

* `Expression.listing`: the tokens of an expression;
* `listing_append_inj`: a sequence of tokens starts with the listing of at most one expression;
* `ofListing?`, `ofListing?_eq_some_iff`: the expression that a sequence of tokens lists, found from
  the last token to the first with the expressions listed so far;
* `Opened`: the applications that are being read, and the tokens read for them. Such a beginning can
  be completed, so it does not itself start with a listing (`Opened.listing_ne`);
* `Expression.term`: the call-by-name term of an expression.
-/

import ByNeed.Proofs.Reduction.Term
import ByNeed.Token

namespace ByNeed

/-- An expression as it is written. -/
inductive Expression
  | number (numeral : Numeral)
  | symbol (name : String)
  | ap (operator operand : Expression)

namespace Expression

/-- The tokens of an expression. -/
def listing : Expression → List Token
  | .number numeral => [.number numeral]
  | .symbol name => [.symbol name]
  | .ap operator operand => .ap :: (operator.listing ++ operand.listing)

/-- The term of an expression whose symbols are looked up in a table. -/
def term (table : TableId) : Expression → Reduction.Term
  | .number numeral => .num numeral.toInt
  | .symbol name => .name table name
  | .ap operator operand => .app (operator.term table) (operand.term table)

/-! ### Unique reading -/

/-- **A sequence of tokens starts with the listing of at most one expression.** -/
theorem listing_append_inj {first second : Expression} {rest other : List Token}
    (same : first.listing ++ rest = second.listing ++ other) : first = second ∧ rest = other := by
  induction first generalizing second rest other with
  | number numeral =>
    cases second with
    | number numeral' =>
      simp only [listing, List.cons_append, List.nil_append, List.cons.injEq,
        Token.number.injEq] at same
      exact ⟨by rw [same.1], same.2⟩
    | symbol name => simp [listing] at same
    | ap operator operand => simp [listing] at same
  | symbol name =>
    cases second with
    | number numeral => simp [listing] at same
    | symbol name' =>
      simp only [listing, List.cons_append, List.nil_append, List.cons.injEq,
        Token.symbol.injEq] at same
      exact ⟨by rw [same.1], same.2⟩
    | ap operator operand => simp [listing] at same
  | ap operator operand ihOperator ihOperand =>
    cases second with
    | number numeral => simp [listing] at same
    | symbol name => simp [listing] at same
    | ap operator' operand' =>
      simp only [listing, List.cons_append, List.append_assoc, List.cons.injEq, true_and] at same
      obtain ⟨sameOperator, operands⟩ := ihOperator same
      obtain ⟨sameOperand, rests⟩ := ihOperand operands
      exact ⟨by rw [sameOperator, sameOperand], rests⟩

theorem listing_injective {first second : Expression} (same : first.listing = second.listing) :
    first = second := by
  have padded : first.listing ++ [] = second.listing ++ [] := by rw [same]
  exact (listing_append_inj padded).1

/-! ### Reading a listing -/

/-- Put a token in front of the expressions listed after it. -/
def gather (token : Token) (listed : List Expression) : Option (List Expression) :=
  match token, listed with
  | .number numeral, listed => some (.number numeral :: listed)
  | .symbol name, listed => some (.symbol name :: listed)
  | .ap, operator :: operand :: listed => some (.ap operator operand :: listed)
  | .ap, _ => none

/-- The expressions that a sequence of tokens lists, one after the other. -/
def gatherAll : List Token → Option (List Expression)
  | [] => some []
  | token :: rest => (gatherAll rest).bind (gather token)

/-- The expression that a sequence of tokens lists, if it lists exactly one. -/
def ofListing? (tokens : List Token) : Option Expression :=
  match gatherAll tokens with
  | some [e] => some e
  | _ => none

theorem gatherAll_listing (e : Expression) (rest : List Token) :
    gatherAll (e.listing ++ rest) = (gatherAll rest).map (e :: ·) := by
  induction e generalizing rest with
  | number numeral =>
    simp only [listing, List.cons_append, List.nil_append, gatherAll]
    cases gatherAll rest <;> rfl
  | symbol name =>
    simp only [listing, List.cons_append, List.nil_append, gatherAll]
    cases gatherAll rest <;> rfl
  | ap operator operand ihOperator ihOperand =>
    simp only [listing, List.cons_append, List.append_assoc, gatherAll, ihOperator, ihOperand]
    cases gatherAll rest <;> rfl

theorem flatMap_listing_of_gather {token : Token} {listed all : List Expression}
    (gathered : gather token listed = some all) :
    all.flatMap listing = token :: listed.flatMap listing := by
  unfold gather at gathered
  split at gathered
  · cases gathered
    rfl
  · cases gathered
    rfl
  · cases gathered
    simp [listing]
  · cases gathered

theorem flatMap_listing_of_gatherAll {tokens : List Token} {listed : List Expression}
    (gathered : gatherAll tokens = some listed) : listed.flatMap listing = tokens := by
  induction tokens generalizing listed with
  | nil =>
    cases gathered
    rfl
  | cons token rest ih =>
    obtain ⟨later, found, gathered⟩ := Option.bind_eq_some_iff.mp gathered
    rw [flatMap_listing_of_gather gathered, ih found]

/-- **A sequence of tokens is read as an expression exactly if it is its listing.** -/
theorem ofListing?_eq_some_iff {tokens : List Token} {e : Expression} :
    ofListing? tokens = some e ↔ tokens = e.listing := by
  constructor
  · intro found
    unfold ofListing? at found
    split at found
    · next gathered =>
      cases found
      rw [← flatMap_listing_of_gatherAll gathered]
      simp
    · cases found
  · rintro rfl
    have gathered := gatherAll_listing e []
    rw [List.append_nil] at gathered
    unfold ofListing?
    rw [gathered]
    rfl

/-! ### Beginnings of listings -/

/-- The applications that are being read, the innermost first, each with its operator if that has
been read. -/
abbrev Opened := List (Option Expression)

/-- The tokens that have been read for the applications that are being read. -/
def Opened.listing : Opened → List Token
  | [] => []
  | none :: outer => Opened.listing outer ++ [.ap]
  | some operator :: outer => Opened.listing outer ++ .ap :: operator.listing

/-- What has been read can be completed once an operand is there. -/
theorem Opened.completed (opened : Opened) (e : Expression) :
    ∃ whole rest, opened.listing ++ (e.listing ++ rest) = Expression.listing whole := by
  induction opened generalizing e with
  | nil => exact ⟨e, [], by simp [Opened.listing]⟩
  | cons frame outer ih =>
    cases frame with
    | none =>
      obtain ⟨whole, rest, complete⟩ := ih (.ap e e)
      exact ⟨whole, e.listing ++ rest, by
        simpa [Opened.listing, Expression.listing] using complete⟩
    | some operator =>
      obtain ⟨whole, rest, complete⟩ := ih (.ap operator e)
      exact ⟨whole, rest, by simpa [Opened.listing, Expression.listing] using complete⟩

/-- **What has been read for applications that are not complete starts with no listing.** -/
theorem Opened.listing_ne (opened : Opened) (e : Expression) (rest : List Token) :
    opened.listing ≠ e.listing ++ rest := by
  intro same
  obtain ⟨whole, more, complete⟩ := opened.completed (.symbol "")
  rw [same, ← List.append_nil whole.listing, List.append_assoc] at complete
  have left := (listing_append_inj complete).2
  simp [Expression.listing] at left

end Expression

end ByNeed
