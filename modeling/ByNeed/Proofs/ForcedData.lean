/-
**Forced data.**

Data is a number, the empty list, or a pair of data. A cell holds data if its value and the values of
all cells that it leads to are there already (`Store.Holds`). Traversals find what is there and leave
the store as it is; and a traversal that answers has left everything it has gone through forced.

* `Datum.tree`, `Datum.expression`: the tree of data, and an expression that builds it;
* `Datum.height`, `Datum.rank`: the depth that a recursion over data takes, and that a loop does;
* `materialize_of_holds`, `sourceTokens_of_holds`: traversing what is forced already;
* `sourceTokens_holds`: **what has been written as source is forced**, and the tokens are those of
  its expression;
* `tree_of_sourceTokens`: its tree is the one found before.
-/

import ByNeed.Proofs.Expression
import ByNeed.Proofs.Progress

namespace ByNeed

open Reduction

/-! ### Data -/

/-- What is left of a cell in which everything has been forced. -/
inductive Datum
  | num (n : Int)
  | nil
  | pair (first second : Datum)
deriving DecidableEq

namespace Datum

/-- The tree of data: a spine that ends in the empty list is a list. -/
def tree : Datum → Tree
  | .num n => .num n
  | .nil => .list []
  | .pair first second => first.tree.prepend second.tree

/-- The expression that builds data. -/
def expression : Datum → Expression
  | .num n => .number (.ofInt n)
  | .nil => .symbol "nil"
  | .pair first second => .ap (.ap (.symbol "cons") first.expression) second.expression

theorem listing_pair (first second : Datum) : (pair first second).expression.listing =
    .ap :: .ap :: .symbol "cons" :: (first.expression.listing ++ second.expression.listing) := by
  simp [expression, Expression.listing]

/-- All integers in data are within the limit. -/
def writable : Datum → Bool
  | .num n => ByNeed.writable n
  | .nil => true
  | .pair first second => first.writable && second.writable

/-- How deeply pairs are nested in data. -/
def height : Datum → Nat
  | .num _ => 0
  | .nil => 0
  | .pair first second => max first.height second.height + 1

/-- How many pairs follow one another down the spine of data. -/
def length : Datum → Nat
  | .num _ => 0
  | .nil => 0
  | .pair _ second => second.length + 1

/-- The depth that the tree of forced data takes: as many rounds as there are cells down its spine,
and one level more than for each element. -/
def rank : Datum → Nat
  | .num _ => 1
  | .nil => 1
  | .pair first second => max (second.length + 2) (max (first.rank + 1) second.rank)

theorem length_lt_rank (datum : Datum) : datum.length < datum.rank := by
  cases datum with
  | num n => exact Nat.zero_lt_one
  | nil => exact Nat.zero_lt_one
  | pair first second => exact Nat.le_max_left _ _

theorem length_le_height (datum : Datum) : datum.length ≤ datum.height := by
  induction datum with
  | num n => exact Nat.le_refl 0
  | nil => exact Nat.le_refl 0
  | pair first second _ ih =>
    simp only [length, height]
    omega

/-- A loop takes no more depth than a recursion. -/
theorem rank_le_height (datum : Datum) : datum.rank ≤ datum.height + 1 := by
  induction datum with
  | num n => exact Nat.le_refl 1
  | nil => exact Nat.le_refl 1
  | pair first second ihFirst ihSecond =>
    have spine := second.length_le_height
    simp only [rank, height]
    omega

end Datum

variable {store later : Store} {x y : CellId} {datum : Datum} {depth : Nat} {tokens : List Token}

/-! ### Cells that hold data -/

/-- **A cell holds data**: everything that its value leads to has been forced. -/
inductive Store.Holds (store : Store) : CellId → Datum → Prop
  | num {x : CellId} {n : Int} : store.Has x → store.cell x = .value (.num n) →
      Holds store x (.num n)
  | nil {x : CellId} : store.Has x → store.cell x = .value .nil → Holds store x .nil
  | pair {x head tail : CellId} {first second : Datum} : store.Has x →
      store.cell x = .value (.pair head tail) → Holds store head first → Holds store tail second →
      Holds store x (.pair first second)

/-- Data that a cell holds stays. -/
theorem Store.Holds.mono (holds : store.Holds x datum) (evolves : store.Evolves later) :
    later.Holds x datum := by
  induction holds with
  | num there value => exact .num (evolves.has there) (evolves.value there value)
  | nil there value => exact .nil (evolves.has there) (evolves.value there value)
  | pair there value _ _ ihHead ihTail =>
    exact .pair (evolves.has there) (evolves.value there value) ihHead ihTail

/-! ### Traversing what is forced already -/

/-- The tree of a forced spine, given how the trees of its elements are found. -/
theorem materializeWith_of_holds {find : CellId → Eval Tree} {rounds : Nat}
    (finds : ∀ {y datum}, store.Holds y datum → datum.rank ≤ depth →
      find y store = .ok datum.tree store)
    (holds : store.Holds x datum) (reversed : List Tree) (long : datum.length < rounds)
    (deep : datum.rank ≤ depth + 1) :
    materializeWith (force depth) find rounds reversed x store =
      .ok (Tree.prependAll reversed datum.tree) store := by
  induction holds generalizing rounds reversed with
  | num there value =>
    obtain ⟨rounds, rfl⟩ := Nat.exists_eq_succ_of_ne_zero (Nat.ne_zero_of_lt long)
    rw [materializeWith, bind_of_ok (force_of_value value depth), Datum.tree, prependAll_num]
    rfl
  | nil there value =>
    obtain ⟨rounds, rfl⟩ := Nat.exists_eq_succ_of_ne_zero (Nat.ne_zero_of_lt long)
    rw [materializeWith, bind_of_ok (force_of_value value depth), Datum.tree, prependAll_list,
      List.append_nil]
    rfl
  | pair there value holdsHead _ _ ihTail =>
    obtain ⟨rounds, rfl⟩ := Nat.exists_eq_succ_of_ne_zero (Nat.ne_zero_of_lt long)
    simp only [Datum.rank, Datum.length] at deep long
    rw [materializeWith_of_pair (force_of_value value depth),
      bind_of_ok (finds holdsHead (by omega))]
    exact ihTail _ (by omega) (by omega)

/-- **The tree of forced data** is found without a change to the store. -/
theorem materialize_of_holds (holds : store.Holds x datum) (deep : datum.rank ≤ depth) :
    materialize depth x store = .ok datum.tree store := by
  induction depth generalizing x datum with
  | zero =>
    have positive := datum.length_lt_rank
    omega
  | succ depth ih =>
    exact materializeWith_of_holds ih holds [] (Nat.lt_of_lt_of_le datum.length_lt_rank deep) deep

/-- **The tokens of forced data** are found without a change to the store. -/
theorem sourceTokens_of_holds (holds : store.Holds x datum) (within : datum.writable = true)
    (deep : datum.height < depth) :
    sourceTokens depth x store = .ok datum.expression.listing store := by
  induction holds generalizing depth with
  | num there value =>
    obtain ⟨depth, rfl⟩ := Nat.exists_eq_succ_of_ne_zero (Nat.ne_zero_of_lt deep)
    rw [Datum.writable] at within
    rw [sourceTokens, bind_of_ok (force_of_value value depth)]
    simp only [within, if_true]
    rfl
  | nil there value =>
    obtain ⟨depth, rfl⟩ := Nat.exists_eq_succ_of_ne_zero (Nat.ne_zero_of_lt deep)
    rw [sourceTokens, bind_of_ok (force_of_value value depth)]
    rfl
  | pair there value _ _ ihHead ihTail =>
    obtain ⟨depth, rfl⟩ := Nat.exists_eq_succ_of_ne_zero (Nat.ne_zero_of_lt deep)
    simp only [Datum.height] at deep
    obtain ⟨first, second⟩ := Bool.and_eq_true_iff.mp within
    rw [Datum.listing_pair]
    exact sourceTokens_of_halves (force_of_value value depth) (ihHead first (by omega))
      (ihTail second (by omega))

theorem source_of_holds (holds : store.Holds x datum) (within : datum.writable = true)
    (deep : datum.height < depth) :
    source depth x store = .ok (unlex datum.expression.listing) store :=
  bind_of_ok (sourceTokens_of_holds holds within deep)

/-! ### What a traversal has forced -/

/-- A cell that was forced holds the value that it answered. -/
theorem forceCellWith_stores {run : Suspension → Eval Value} {v : Value}
    (answered : forceCellWith run x store = .ok v later) (there : later.Has x) :
    later.cell x = .value v := by
  obtain ⟨c, middle, read, rest⟩ := bind_eq_ok answered
  cases read
  cases holds : store.cell x with
  | value w =>
    rw [holds] at rest
    cases rest
    exact holds
  | suspended s =>
    rw [holds] at rest
    obtain ⟨w, middle, -, rest⟩ := bind_eq_ok rest
    cases rest
    rw [Store.cell_commit ((Store.has_commit_iff middle x v).mp there), if_pos rfl]

theorem cell_of_force {v : Value} (answered : force depth x store = .ok v later)
    (there : later.Has x) : later.cell x = .value v := by
  cases depth with
  | zero => exact forceCellWith_stores answered there
  | succ depth => exact forceCellWith_stores answered there

theorem force_stores {v : Value} (represented : store.Represented) (there : store.Has x)
    (answered : force depth x store = .ok v later) : later.cell x = .value v := by
  have evolves := ((force_progress depth represented there).ok v later answered).1.evolves
  exact cell_of_force answered (evolves.has there)

/-- **What has been written as source is forced**: the cell holds data whose expression has the
tokens that were answered, and all of its integers are within the limit. -/
theorem sourceTokens_holds (depth : Nat) (represented : store.Represented) (there : store.Has x)
    (answered : sourceTokens depth x store = .ok tokens later) :
    store.Progress later ∧ ∃ datum : Datum, later.Holds x datum ∧
      tokens = datum.expression.listing ∧ datum.writable = true ∧ datum.height < depth := by
  induction depth generalizing store later x tokens with
  | zero => cases answered
  | succ depth ih =>
    obtain ⟨v, store₁, forced, answered⟩ := bind_eq_ok answered
    obtain ⟨progress₁, parts⟩ := (force_progress depth represented there).ok v store₁ forced
    have value := force_stores represented there forced
    have there₁ := progress₁.evolves.has there
    cases v with
    | num n =>
      simp only at answered
      by_cases within : writable n = true
      · rw [if_pos within] at answered
        cases answered
        exact ⟨progress₁, .num n, .num there₁ value, rfl, within, Nat.succ_pos depth⟩
      · rw [if_neg within] at answered
        cases answered
    | nil =>
      cases answered
      exact ⟨progress₁, .nil, .nil there₁ value, rfl, rfl, Nat.succ_pos depth⟩
    | func f => cases answered
    | pair head tail =>
      have thereHead := parts head (by simp [Value.cells])
      have thereTail := parts tail (by simp [Value.cells])
      obtain ⟨first, store₂, answeredHead, answered⟩ := bind_eq_ok answered
      obtain ⟨second, store₃, answeredTail, answered⟩ := bind_eq_ok answered
      cases answered
      obtain ⟨progress₂, a, holdsHead, rfl, withinHead, deepHead⟩ :=
        ih progress₁.represented thereHead answeredHead
      obtain ⟨progress₃, b, holdsTail, rfl, withinTail, deepTail⟩ :=
        ih progress₂.represented (progress₂.evolves.has thereTail) answeredTail
      -- The first half is forced before the second, and stays so.
      have evolves := progress₂.evolves.trans progress₃.evolves
      refine ⟨Trans.trans progress₁ (Trans.trans progress₂ progress₃), .pair a b,
        .pair (evolves.has there₁) (evolves.value there₁ value) (holdsHead.mono progress₃.evolves)
          holdsTail, (a.listing_pair b).symm, ?_, ?_⟩
      · exact Bool.and_eq_true_iff.mpr ⟨withinHead, withinTail⟩
      · simp only [Datum.height]
        omega

/-- The tree of what has been written as source is the one that is found in the store before. -/
theorem tree_of_sourceTokens {last : Store} {tree : Tree} {n : Nat} (represented : store.Represented)
    (there : store.Has x) (answered : sourceTokens depth x store = .ok tokens later)
    (holds : later.Holds x datum) (found : materialize n x store = .ok tree last) :
    tree = datum.tree := by
  obtain ⟨defs, terms, represents⟩ := represented
  obtain ⟨terms', grows⟩ := (sourceTokens_ensures depth represents there).ok answered
  have before := ((materialize_ensures n represents there).ok found).2
  have after := ((materialize_ensures datum.rank grows.represents
    (grows.evolves.has there)).ok (materialize_of_holds holds (Nat.le_refl _))).2
  -- The cell stands for one term in both stores, and a term has one tree.
  rw [grows.of_eq represents there] at after
  exact before.unique after

end ByNeed
