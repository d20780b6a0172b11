/-
**Formulas and programs.**

A formula is made of numerals, names, arithmetic, and choices between two formulas by a comparison of
two others. Under a meaning of the names it has an integer as its value, or none if a quotient by zero
is demanded: of a choice, only the formula that is chosen counts. A program gives names their
formulas. If no name leads back to itself, then there is a meaning that agrees with all of them.

* `Formula.value`, `Formula.expression`: the value of a formula, and how it is written;
* `Clause`, `WellFormed`: a definition, and programs of definitions whose names do not lead in circles;
* `wellFounded_mentions`: the names of such a program are in order;
* `exists_solution`: **what formulas say about names can be met**;
* `value_eq_none_iff`: **a formula has no value exactly if a quotient by zero is demanded**.
-/

import ByNeed.Builtins
import ByNeed.Proofs.Expression
import ByNeed.Proofs.Lexing
import ByNeed.Text.Lines
import Mathlib.Order.WellFoundedSet

namespace ByNeed

/-! ### Formulas -/

/-- Arithmetic on two integers. -/
inductive Operation
  | add
  | mul
  | div
deriving DecidableEq

namespace Operation

/-- The primitive of an operation. -/
def binop : Operation → Binop
  | .add => .add
  | .mul => .mul
  | .div => .div

/-- The integer that an operation gives; a quotient is rounded toward zero, and there is none by
zero. -/
def compute : Operation → Int → Int → Option Int
  | .add, m, n => some (m + n)
  | .mul, m, n => some (m * n)
  | .div, m, n => if n = 0 then none else some (m.tdiv n)

end Operation

/-- Comparisons of two integers. -/
inductive Comparison
  | eq
  | lt
deriving DecidableEq

namespace Comparison

/-- The primitive of a comparison. -/
def binop : Comparison → Binop
  | .eq => .eq
  | .lt => .lt

/-- A comparison holds of two integers. -/
def holds : Comparison → Int → Int → Bool
  | .eq, m, n => m == n
  | .lt, m, n => m < n

end Comparison

/-- A formula over integers and names. -/
inductive Formula
  | literal (numeral : Numeral)
  | reference (name : String)
  | monop (op : Monop) (x : Formula)
  | operate (op : Operation) (x y : Formula)
  /-- The first of two formulas if a comparison holds of two others, and else the second. -/
  | choose (test : Comparison) (p q yes no : Formula)

namespace Formula

/-- **The value of a formula**, given the values of the names. -/
def value (meaning : String → Option Int) : Formula → Option Int
  | .literal numeral => some numeral.toInt
  | .reference name => meaning name
  | .monop op x => (x.value meaning).map op.apply
  | .operate op x y => do op.compute (← x.value meaning) (← y.value meaning)
  | .choose test p q yes no => do
    let m ← p.value meaning
    let n ← q.value meaning
    if test.holds m n then yes.value meaning else no.value meaning

/-- The expression of a formula. -/
def expression : Formula → Expression
  | .literal numeral => .number numeral
  | .reference name => .symbol name
  | .monop op x => .ap (.symbol op.name) x.expression
  | .operate op x y => .ap (.ap (.symbol op.binop.name) x.expression) y.expression
  | .choose test p q yes no =>
    .ap (.ap (.ap (.ap (.symbol test.binop.name) p.expression) q.expression) yes.expression)
      no.expression

/-- The names in a formula. -/
def names : Formula → List String
  | .literal _ => []
  | .reference name => [name]
  | .monop _ x => x.names
  | .operate _ x y => x.names ++ y.names
  | .choose _ p q yes no => p.names ++ q.names ++ yes.names ++ no.names

/-- All numerals of a formula are within the limit. -/
def readable : Formula → Bool
  | .literal numeral => numeral.readable
  | .reference _ => true
  | .monop _ x => x.readable
  | .operate _ x y => x.readable && y.readable
  | .choose _ p q yes no => p.readable && q.readable && yes.readable && no.readable

/-- How deeply the value of a formula nests, given how deeply the values of the names do. -/
def cost (level : String → Nat) : Formula → Nat
  | .literal _ => 0
  | .reference name => level name + 1
  | .monop _ x => x.cost level + 2
  | .operate _ x y => x.cost level + y.cost level + 4
  | .choose _ p q yes no =>
    p.cost level + q.cost level + yes.cost level + no.cost level + 8

/-- Only the names in a formula matter to its value. -/
theorem value_congr {formula : Formula} {meaning other : String → Option Int}
    (agree : ∀ name ∈ formula.names, meaning name = other name) :
    formula.value meaning = formula.value other := by
  induction formula with
  | literal numeral => rfl
  | reference name => exact agree name (by simp [names])
  | monop op x ih => rw [value, value, ih agree]
  | operate op x y ihX ihY =>
    simp only [names, List.mem_append] at agree
    rw [value, value, ihX fun name member => agree name (Or.inl member),
      ihY fun name member => agree name (Or.inr member)]
  | choose test p q yes no ihP ihQ ihYes ihNo =>
    simp only [names, List.mem_append, or_assoc] at agree
    rw [value, value, ihP fun name member => agree name (Or.inl member),
      ihQ fun name member => agree name (Or.inr (Or.inl member)),
      ihYes fun name member => agree name (Or.inr (Or.inr (Or.inl member))),
      ihNo fun name member => agree name (Or.inr (Or.inr (Or.inr member)))]

theorem cost_congr {formula : Formula} {level other : String → Nat}
    (agree : ∀ name ∈ formula.names, level name = other name) :
    formula.cost level = formula.cost other := by
  induction formula with
  | literal numeral => rfl
  | reference name => rw [cost, cost, agree name (by simp [names])]
  | monop op x ih => rw [cost, cost, ih agree]
  | operate op x y ihX ihY =>
    simp only [names, List.mem_append] at agree
    rw [cost, cost, ihX fun name member => agree name (Or.inl member),
      ihY fun name member => agree name (Or.inr member)]
  | choose test p q yes no ihP ihQ ihYes ihNo =>
    simp only [names, List.mem_append, or_assoc] at agree
    rw [cost, cost, ihP fun name member => agree name (Or.inl member),
      ihQ fun name member => agree name (Or.inr (Or.inl member)),
      ihYes fun name member => agree name (Or.inr (Or.inr (Or.inl member))),
      ihNo fun name member => agree name (Or.inr (Or.inr (Or.inr member)))]

end Formula

/-! ### Programs -/

/-- **A name can be defined**: it is read as a name, is not the sign between a name and its body, and
is not that of a builtin. -/
structure Definable (name : String) : Prop where
  legible : (Token.symbol name).Legible
  ne_equals : name ≠ "="
  not_builtin : name ∉ Builtins.all.map Prod.fst

/-- Letters lie between two code points. -/
theorem range_of_isAlpha {c : Char} (letter : c.isAlpha = true) : 65 ≤ c.toNat ∧ c.toNat ≤ 122 := by
  rcases Bool.or_eq_true_iff.mp letter with upper | lower
  · have range : 65 ≤ c.toNat ∧ c.toNat ≤ 90 := of_decide_eq_true upper
    omega
  · have range : 97 ≤ c.toNat ∧ c.toNat ≤ 122 :=
      (Bool.and_eq_true_iff.mp lower).imp of_decide_eq_true of_decide_eq_true
    omega

/-- A letter or a digit is not blank. -/
theorem Text.isBlank_of_isAlphanum {c : Char} (alphanumeric : c.isAlphanum = true) :
    isBlank c = false := by
  rcases Bool.or_eq_true_iff.mp alphanumeric with letter | digit
  · have range := range_of_isAlpha letter
    simp only [isBlank, inSpans, blankSpans, List.any_cons, List.any_nil, Bool.or_false,
      Bool.or_eq_false_iff, Bool.and_eq_false_iff, decide_eq_false_iff_not]
    omega
  · exact isBlank_of_isDigit digit

/-- A text that starts with a letter spells no numeral. -/
theorem Numeral.ofChars?_of_isAlpha {first : Char} (letter : first.isAlpha = true)
    (rest : List Char) : ofChars? (first :: rest) = none := by
  have range := range_of_isAlpha letter
  have unsigned : first ≠ '-' := by
    rintro rfl
    revert letter
    decide
  have other : first.isDigit = false := by
    have nine : '9'.val.toNat = 57 := by decide
    have same : first.toNat = first.val.toNat := rfl
    simp only [Char.isDigit, ge_iff_le, Bool.and_eq_false_iff, decide_eq_false_iff_not,
      UInt32.le_iff_toNat_le]
    omega
  unfold ofChars?
  split
  · next same =>
    cases same
    exact absurd rfl unsigned
  · simp [isDigitRun, other]

/-- A name of letters and digits that starts with a letter can be defined, unless it announces an
application or is that of a builtin. -/
theorem definable_of_alphanumeric {first : Char} {rest : List Char} (letter : first.isAlpha = true)
    (alphanumeric : rest.all Char.isAlphanum = true) (ne_ap : first :: rest ≠ Token.apWord)
    (not_builtin : String.ofList (first :: rest) ∉ Builtins.all.map Prod.fst) :
    Definable (String.ofList (first :: rest)) := by
  have chars : (Token.symbol (String.ofList (first :: rest))).chars = first :: rest :=
    String.toList_ofList
  refine ⟨⟨?_, ?_, ?_⟩, ?_, not_builtin⟩
  · rw [chars]
    exact List.cons_ne_nil _ _
  · rw [chars]
    intro c member
    rcases List.mem_cons.mp member with rfl | member
    · exact Text.isBlank_of_isAlphanum (by simp [Char.isAlphanum, letter])
    · exact Text.isBlank_of_isAlphanum (List.all_eq_true.mp alphanumeric c member)
  · rw [chars, Token.ofWord, if_neg ne_ap, Numeral.ofChars?_of_isAlpha letter]
  · intro same
    have equals : first = '=' := by
      have chars := congrArg String.toList same
      simp only [String.toList_ofList] at chars
      exact (List.cons.inj chars).1
    rw [equals] at letter
    revert letter
    decide

/-- **A definition**: a name, and a text that is read as a formula. -/
structure Clause where
  name : String
  body : String
  formula : Formula
  definable : Definable name
  reads : lex body = formula.expression.listing
  readable : formula.readable = true

/-- The line of a definition. -/
def Clause.line (clause : Clause) : List Char :=
  clause.name.toList ++ ' ' :: '=' :: ' ' :: clause.body.toList

/-- A name is mentioned in the definition of another. -/
def Mentions (program : List Clause) (mentioned name : String) : Prop :=
  ∃ clause ∈ program, clause.name = name ∧ mentioned ∈ clause.formula.names

/-- **A program**: the names are distinct, all that are mentioned are defined, and none leads back to
itself. -/
structure WellFormed (program : List Clause) : Prop where
  distinct : (program.map Clause.name).Nodup
  closed : ∀ clause ∈ program, ∀ name ∈ clause.formula.names, name ∈ program.map Clause.name
  acyclic : ∀ name, ¬ Relation.TransGen (Mentions program) name name

/-- A meaning of the names agrees with a program. -/
def Solves (program : List Clause) (meaning : String → Option Int) : Prop :=
  ∀ clause ∈ program, meaning clause.name = clause.formula.value meaning

variable {program : List Clause}

/-- **The names of a program are in order**: there are finitely many, and they do not lead in
circles. -/
theorem wellFounded_mentions (wellFormed : WellFormed program) : WellFounded (Mentions program) := by
  have trans : IsTrans String (Relation.TransGen (Mentions program)) :=
    ⟨fun _ _ _ => Relation.TransGen.trans⟩
  have irrefl : Std.Irrefl (Relation.TransGen (Mentions program)) := ⟨wellFormed.acyclic⟩
  have order : IsStrictOrder String (Relation.TransGen (Mentions program)) := ⟨⟩
  have finite : {name | name ∈ program.map Clause.name}.Finite := List.finite_toSet _
  have wellFounded := Set.wellFoundedOn_iff.mp
    (finite.wellFoundedOn (r := Relation.TransGen (Mentions program)))
  refine Subrelation.wf (fun {mentioned name} mentions => ?_) wellFounded
  obtain ⟨clause, member, same, inside⟩ := mentions
  exact ⟨.single ⟨clause, member, same, inside⟩, wellFormed.closed clause member mentioned inside,
    List.mem_map.mpr ⟨clause, member, same⟩⟩

/-- **What the formulas of a program say about its names can be met**, if what a formula says depends
on the names in it only. -/
theorem exists_solution {α : Type} [Inhabited α] (wellFormed : WellFormed program)
    {entail : (String → α) → Formula → α}
    (depends : ∀ {formula : Formula} {assigned other : String → α},
      (∀ name ∈ formula.names, assigned name = other name) →
        entail assigned formula = entail other formula) :
    ∃ assigned, ∀ clause ∈ program, assigned clause.name = entail assigned clause.formula := by
  classical
  have wellFounded := wellFounded_mentions wellFormed
  let step (name : String) (earlier : ∀ mentioned, Mentions program mentioned name → α) : α :=
    if defined : ∃ clause ∈ program, clause.name = name then
      entail (fun mentioned => if mentions : Mentions program mentioned name
        then earlier mentioned mentions else default) defined.choose.formula
    else default
  refine ⟨wellFounded.fix step, fun clause member => ?_⟩
  have defined : ∃ other ∈ program, other.name = clause.name := ⟨clause, member, rfl⟩
  have chosen : defined.choose = clause :=
    List.inj_on_of_nodup_map wellFormed.distinct defined.choose_spec.1 member
      defined.choose_spec.2
  rw [wellFounded.fix_eq]
  simp only [step]
  rw [dif_pos defined, chosen]
  refine depends fun name inside => ?_
  rw [dif_pos ⟨clause, member, rfl, inside⟩]

/-! ### Demands -/

/-- **The value of a formula demands that of another**: it is the formula itself, or an operand of a
demanded operation or comparison, or the formula that a demanded choice chooses, or what a demanded
name stands for. -/
inductive Demanded (program : List Clause) (meaning : String → Option Int) : Formula → Formula → Prop
  | self {formula : Formula} : Demanded program meaning formula formula
  | reference {clause : Clause} {part : Formula} : clause ∈ program →
      Demanded program meaning clause.formula part →
      Demanded program meaning (.reference clause.name) part
  | monop {op : Monop} {x part : Formula} : Demanded program meaning x part →
      Demanded program meaning (.monop op x) part
  | operand {op : Operation} {x y z part : Formula} : z = x ∨ z = y →
      Demanded program meaning z part → Demanded program meaning (.operate op x y) part
  | compared {test : Comparison} {p q yes no z part : Formula} : z = p ∨ z = q →
      Demanded program meaning z part → Demanded program meaning (.choose test p q yes no) part
  | chosen {test : Comparison} {p q yes no part : Formula} {m n : Int} :
      p.value meaning = some m → q.value meaning = some n →
      Demanded program meaning (if test.holds m n then yes else no) part →
      Demanded program meaning (.choose test p q yes no) part

/-- The value of a formula demands a quotient by zero. -/
def DividesByZero (program : List Clause) (meaning : String → Option Int) (formula : Formula) :
    Prop :=
  ∃ x y, Demanded program meaning formula (.operate .div x y) ∧ y.value meaning = some 0

namespace DividesByZero

variable {meaning : String → Option Int} {formula part : Formula}

/-- What a demanded formula demands is demanded. -/
theorem of_demand (divides : DividesByZero program meaning part)
    (demand : ∀ {other}, Demanded program meaning part other →
      Demanded program meaning formula other) :
    DividesByZero program meaning formula := by
  obtain ⟨x, y, demanded, zero⟩ := divides
  exact ⟨x, y, demand demanded, zero⟩

theorem value_eq_none (solves : Solves program meaning)
    (divides : DividesByZero program meaning formula) : formula.value meaning = none := by
  obtain ⟨x, y, demanded, zero⟩ := divides
  generalize same : Formula.operate .div x y = quotient at demanded
  induction demanded with
  | self =>
    subst same
    rw [Formula.value, zero]
    cases x.value meaning with
    | none => rfl
    | some m => rfl
  | @reference clause part member _ ih => rw [Formula.value, solves clause member, ih same]
  | monop _ ih => rw [Formula.value, ih same]; rfl
  | @operand op x y z part among _ ih =>
    rw [Formula.value]
    rcases among with rfl | rfl
    · rw [ih same]
      rfl
    · rw [ih same]
      cases x.value meaning <;> rfl
  | @compared test p q yes no z part among _ ih =>
    rw [Formula.value]
    rcases among with rfl | rfl
    · rw [ih same]
      rfl
    · rw [ih same]
      cases p.value meaning <;> rfl
  | @chosen test p q yes no part m n first second _ ih =>
    have none := ih same
    rw [Formula.value, first, second]
    show (if test.holds m n then yes.value meaning else no.value meaning) = _
    split at none <;> simp_all

/-- A formula without a value demands a quotient by zero, if the names in it do so that have none. -/
theorem of_names (names : ∀ name ∈ formula.names, meaning name = none →
      DividesByZero program meaning (.reference name))
    (valueless : formula.value meaning = none) : DividesByZero program meaning formula := by
  induction formula with
  | literal numeral => cases valueless
  | reference name => exact names name (by simp [Formula.names]) valueless
  | monop op x ih =>
    exact (ih names (Option.map_eq_none_iff.mp valueless)).of_demand .monop
  | operate op x y ihX ihY =>
    simp only [Formula.names, List.mem_append] at names
    rw [Formula.value] at valueless
    cases first : x.value meaning with
    | none =>
      exact (ihX (fun name member => names name (Or.inl member)) first).of_demand
        (.operand (Or.inl rfl))
    | some m =>
      cases second : y.value meaning with
      | none =>
        exact (ihY (fun name member => names name (Or.inr member)) second).of_demand
          (.operand (Or.inr rfl))
      | some n =>
        rw [first, second] at valueless
        obtain ⟨rfl, rfl⟩ : op = .div ∧ n = 0 := by
          cases op with
          | add => cases valueless
          | mul => cases valueless
          | div => simpa [Operation.compute] using valueless
        exact ⟨x, y, .self, second⟩
  | choose test p q yes no ihP ihQ ihYes ihNo =>
    simp only [Formula.names, List.mem_append, or_assoc] at names
    rw [Formula.value] at valueless
    cases first : p.value meaning with
    | none =>
      exact (ihP (fun name member => names name (Or.inl member)) first).of_demand
        (.compared (Or.inl rfl))
    | some m =>
      cases second : q.value meaning with
      | none =>
        exact (ihQ (fun name member => names name (Or.inr (Or.inl member))) second).of_demand
          (.compared (Or.inr rfl))
      | some n =>
        rw [first, second] at valueless
        replace valueless : (if test.holds m n then yes.value meaning else no.value meaning) = none :=
          valueless
        have divides : DividesByZero program meaning (if test.holds m n then yes else no) := by
          split at valueless <;> simp_all
        exact divides.of_demand (.chosen first second)

end DividesByZero

/-- **A formula has no value exactly if a quotient by zero is demanded.** -/
theorem value_eq_none_iff {meaning : String → Option Int} {formula : Formula}
    (wellFormed : WellFormed program) (solves : Solves program meaning)
    (inside : ∀ name ∈ formula.names, name ∈ program.map Clause.name) :
    formula.value meaning = none ↔ DividesByZero program meaning formula := by
  refine ⟨fun valueless => .of_names ?_ valueless, DividesByZero.value_eq_none solves⟩
  suffices each : ∀ name, name ∈ program.map Clause.name → meaning name = none →
      DividesByZero program meaning (.reference name) from fun name member => each name (inside name member)
  intro name
  -- A name has no value because of the names in its formula, which come before it.
  induction name using (wellFounded_mentions wellFormed).induction with
  | _ name ih =>
    intro defined valueless
    obtain ⟨clause, member, rfl⟩ := List.mem_map.mp defined
    rw [solves clause member] at valueless
    refine (DividesByZero.of_names (fun mentioned among => ?_) valueless).of_demand (.reference member)
    exact ih mentioned ⟨clause, member, rfl, among⟩ (wellFormed.closed clause member mentioned among)

end ByNeed
