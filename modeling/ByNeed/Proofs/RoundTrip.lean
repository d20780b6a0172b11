/-
**Source text reads back.**

The source text of a cell lists an expression of numerals, the empty list and pairs. In any
environment that extends the builtins, reading it builds pairs of cells that hold values, so the data
is there at once, without a suspension being run.

* `legible_listing`: the tokens of data are read back from their text;
* `build_pair`, `build_holds`: building the expression of data gives a cell that holds the data;
* `source_reads_back`: **source text reads back** as the data that it was written from.
-/

import ByNeed.Proofs.Bindings
import ByNeed.Proofs.ForcedData
import ByNeed.Proofs.Grammar
import ByNeed.Proofs.Lexing
import ByNeed.Proofs.Steps

namespace ByNeed

variable {store later : Store} {env : TableId} {x : CellId} {datum : Datum} {name : String}
  {v : Value}

/-! ### The text of data -/

/-- The tokens of data are legible. -/
theorem legible_listing (datum : Datum) :
    ∀ token ∈ datum.expression.listing, token.Legible := by
  have legible_nil : (Token.symbol "nil").Legible :=
    ⟨by decide, Text.unbroken_of_all (by decide), by decide⟩
  have legible_cons : (Token.symbol "cons").Legible :=
    ⟨by decide, Text.unbroken_of_all (by decide), by decide⟩
  induction datum with
  | num n =>
    intro token member
    obtain rfl := List.mem_singleton.mp member
    exact legible_ofInt n
  | nil =>
    intro token member
    obtain rfl := List.mem_singleton.mp member
    exact legible_nil
  | pair first second ihFirst ihSecond =>
    intro token member
    simp only [Datum.expression, Expression.listing, List.mem_cons, List.mem_append,
      List.not_mem_nil, or_false] at member
    rcases member with rfl | (rfl | rfl | inFirst) | inSecond
    · exact legible_ap
    · exact legible_ap
    · exact legible_cons
    · exact ihFirst token inFirst
    · exact ihSecond token inSecond

/-- The text of data is read as its expression. -/
theorem parse_source (datum : Datum) (depth : Nat) (env : TableId) :
    Reader.parse depth env (unlex datum.expression.listing) =
      datum.expression.build depth env := by
  have listed : lex (unlex datum.expression.listing) = (Phrase.whole datum.expression).tokens :=
    lex_unlex (legible_listing datum)
  exact Reader.parse_eq_build listed depth env

/-! ### Building data -/

theorem Store.HasBuiltins.builds (builtins : store.HasBuiltins env) (builds : store.Builds later) :
    later.HasBuiltins env := by
  intro item member
  obtain ⟨x, found, there, holds⟩ := builtins item member
  refine ⟨x, ?_, builds.evolves.has there, builds.evolves.value there holds⟩
  rwa [Store.table_congr builds.tables_eq]

/-- A mention of a builtin is the cell that holds its value. -/
theorem Store.HasBuiltins.reference (builtins : store.HasBuiltins env)
    (member : (name, v) ∈ Builtins.all) :
    ∃ x, Environment.reference env name store = .ok x store ∧ store.Has x ∧
      store.cell x = .value v := by
  obtain ⟨x, found, there, holds⟩ := builtins (name, v) member
  have read : Environment.lookup env name store = .ok (some x) store := by
    rw [← found]
    rfl
  exact ⟨x, bind_of_ok read, there, holds⟩

/-- What a cell holds that pairs a first half with its argument. -/
def pairing (head : CellId) : Cell :=
  .value (.func (.binaryOn .cons head))

/-- Building a pair: the function that pairs is applied to the one half and then to the other, with
the second half built in between. -/
theorem build_pair {first second : Expression} {c head tail : CellId} {store₁ store₂ : Store}
    {depth : Nat} (found : Environment.reference env "cons" store = .ok c store)
    (pairs : store₁.cell c = .value (.func (.binary .cons)))
    (built₁ : first.build (depth + 1) env store = .ok head store₁)
    (built₂ : second.build (depth + 1) env (store₁.alloc (pairing head)).2 = .ok tail store₂)
    (still : store₂.cell (store₁.alloc (pairing head)).1 = pairing head) :
    (Expression.ap (.ap (.symbol "cons") first) second).build (depth + 1) env store =
      .ok (store₂.alloc (.value (.pair head tail))).1 (store₂.alloc (.value (.pair head tail))).2 := by
  have operator : (Expression.ap (.symbol "cons") first).build (depth + 1) env store =
      .ok (store₁.alloc (pairing head)).1 (store₁.alloc (pairing head)).2 := by
    rw [Expression.build, Expression.build, bind_of_ok found, bind_of_ok built₁]
    exact apply_of_value pairs depth head
  rw [Expression.build, bind_of_ok operator, bind_of_ok built₂]
  exact apply_of_value still depth tail

/-- **Building the expression of data** gives a cell that holds the data. -/
theorem build_holds (datum : Datum) (within : datum.writable = true)
    (builtins : store.HasBuiltins env) :
    ∃ y later, store.Builds later ∧ later.Holds y datum ∧
      ∀ depth, datum.expression.build (depth + 1) env store = .ok y later := by
  induction datum generalizing store with
  | num n =>
    have readable : (Numeral.ofInt n).readable = true := (writable_iff n).mp within
    have read : Eval.ofExcept (Numeral.ofInt n).read store = .ok n store := by
      rw [Numeral.read, if_pos readable, Numeral.toInt_ofInt]
      rfl
    refine ⟨_, _, .alloc (.value (.num n)) .refl, .num (Store.has_alloc store _)
      (Store.cell_alloc_self store _), fun depth => ?_⟩
    exact bind_of_ok read
  | nil =>
    have member : ("nil", Value.nil) ∈ Builtins.all := by decide
    obtain ⟨x, found, there, holds⟩ := builtins.reference member
    exact ⟨x, store, .refl, .nil there holds, fun depth => found⟩
  | pair first second ihFirst ihSecond =>
    obtain ⟨withinFirst, withinSecond⟩ := Bool.and_eq_true_iff.mp within
    have member : ("cons", Value.func (.binary .cons)) ∈ Builtins.all := by decide
    obtain ⟨c, found, there, holds⟩ := builtins.reference member
    obtain ⟨head, store₁, builds₁, holdsHead, built₁⟩ := ihFirst withinFirst builtins
    have onward : store₁.Builds (store₁.alloc (pairing head)).2 := .alloc _ .refl
    obtain ⟨tail, store₂, builds₂, holdsTail, built₂⟩ :=
      ihSecond withinSecond ((builtins.builds builds₁).builds onward)
    have still : store₂.cell (store₁.alloc (pairing head)).1 = pairing head := by
      rw [builds₂.cell_eq (Store.has_alloc store₁ _), Store.cell_alloc_self]
    have builds := onward.trans builds₂
    refine ⟨(store₂.alloc (.value (.pair head tail))).1, (store₂.alloc (.value (.pair head tail))).2,
      .alloc _ (builds₁.trans builds), ?_, fun depth => ?_⟩
    · exact .pair (Store.has_alloc store₂ _) (Store.cell_alloc_self store₂ _)
        (holdsHead.mono (.alloc _ builds.evolves)) (holdsTail.mono (.alloc _ .refl))
    · exact build_pair found ((builds₁.cell_eq there).trans holds) (built₁ depth) (built₂ depth) still

/-! ### The round trip -/

/-- **Source text reads back.** If the source text of a cell of a session is found, then in every
environment that extends the builtins, of any store, reading the text answers a cell. This adds
cells and runs no suspension; the cell holds forced data, of the same tree as the first cell and with
the same source text, and finding these leaves the store as it is. -/
theorem source_reads_back (history : List (Nat × Session.Step)) {depth : Nat} {s : String}
    (there : (Session.reached history).store.Has x)
    (answered : source depth x (Session.reached history).store = .ok s later)
    (builtins : store.HasBuiltins env) :
    ∃ (datum : Datum) (y : CellId) (built : Store),
      (∀ n, Reader.parse (n + 1) env s store = .ok y built) ∧
      store.Builds built ∧ built.forced = store.forced ∧ built.Holds y datum ∧
      (∀ n, depth ≤ n → materialize n y built = .ok datum.tree built ∧
        source n y built = .ok s built) ∧
      (∀ n, depth ≤ n → materialize n x later = .ok datum.tree later) ∧
      ∀ n tree last, materialize n x (Session.reached history).store = .ok tree last →
        tree = datum.tree := by
  have represented := (Session.sound_reached history).represented
  obtain ⟨tokens, later', found, written⟩ := bind_eq_ok answered
  cases written
  obtain ⟨-, datum, holds, rfl, within, deep⟩ :=
    sourceTokens_holds depth represented there found
  obtain ⟨y, built, builds, holdsAgain, reads⟩ := build_holds datum within builtins
  refine ⟨datum, y, built, fun n => ?_, builds, builds.forced_eq, holdsAgain, fun n le => ?_,
    fun n le => ?_, fun n tree last before => ?_⟩
  · rw [parse_source]
    exact reads n
  · have deeper := Nat.lt_of_lt_of_le deep le
    exact ⟨materialize_of_holds holdsAgain (Nat.le_trans datum.rank_le_height deeper),
      source_of_holds holdsAgain within deeper⟩
  · have deeper := Nat.lt_of_lt_of_le deep le
    exact materialize_of_holds holds (Nat.le_trans datum.rank_le_height deeper)
  · exact tree_of_sourceTokens represented there found holds before

/-- A list with a pair of the empty list and a number in it, defined with suspensions, is written as
source and read in an environment in which names have been defined and evaluated. -/
theorem source_reads_back_nested :
    let session := Session.reached [(20, .ofCommand (.environment (.load
      "xs = ap ap cons ap neg 7 ap ap cons ap ap cons nil ap inc 2 nil")))]
    let text := "ap ap cons -7 ap ap cons ap ap cons nil 3 nil"
    let store := Interpreter.reached
      [(20, .define "neg7 = ap neg 7\nxs = ap ap cons neg7 xs"), (20, .eval "ap car xs")]
    (source 20 ⟨28⟩).verdict session.store = .ok text ∧
      ∃ y built, Reader.parse 1 Interpreter.home text store = .ok y built ∧
        built.forced = store.forced ∧ source 20 y built = .ok text built := by
  intro session text store
  have there : session.store.Has ⟨28⟩ := by
    show 28 < session.store.cells.size
    decide +kernel
  have answered : (source 20 ⟨28⟩).verdict session.store = .ok text := by decide +kernel
  obtain ⟨datum, y, built, reads, -, counted, -, again, -⟩ :=
    source_reads_back _ there (Eval.eq_ok_of_verdict answered)
      (Interpreter.hasBuiltins_reached [(20, .define _), (20, .eval _)])
  exact ⟨answered, y, built, reads 0, counted, (again 20 (Nat.le_refl 20)).2⟩

end ByNeed
