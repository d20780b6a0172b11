/-
**Traversals.**

Three ways to walk through data, forcing what they meet:

* `elements`: the elements of a list, of which only the spine is forced;
* `materialize`: the tree of fully forced data; a spine that ends in the empty list is a list, one
  that ends in a number is nested pairs;
* `sourceTokens`: the tokens of an expression that builds the same data again.

All of them force a pair's first half before its second. The first two go down a spine in a loop,
whose rounds do not nest: every cell of the spine is forced with the same depth, and it is the tree of
an element that is found one level deeper. A spine may have no end, so the rounds are counted as well,
and there are as many as the depth. The third calls itself for both halves of a pair.
-/

import ByNeed.Force
import ByNeed.Token
import ByNeed.Tree

namespace ByNeed

/-- The elements of a list, after those found before, which come the latest first. The cells of the
spine are forced with `force`, in a number of rounds. -/
@[specialize]
def elementsWith (force : CellId → Eval Value) :
    Nat → List CellId → CellId → Eval (List CellId)
  | 0, _, _ => throw .depthExhausted
  | rounds + 1, found, x => do
    match ← force x with
    | .nil => pure found.reverse
    | .pair head tail => elementsWith force rounds (head :: found) tail
    | .num n => Eval.faultShowing .listEndsInNumber n
    | .func _ => Eval.fault .listEndsInFunction

/-- The elements of a list, which are not forced. -/
def elements : Nat → CellId → Eval (List CellId)
  | 0, _ => throw .depthExhausted
  | depth + 1, x => elementsWith (force depth) (depth + 1) [] x

/-- Pair every tree with what follows it, given the trees in reverse order. -/
def Tree.pairUp (reversed : List Tree) (last : Tree) : Tree :=
  reversed.foldl (fun rest first => .pair first rest) last

/-- The tree of a spine, after the trees of its earlier elements, which come the latest first. The
cells of the spine are forced with `force`, in a number of rounds, and the trees of the elements are
found with `find`. -/
@[specialize]
def materializeWith (force : CellId → Eval Value) (find : CellId → Eval Tree) :
    Nat → List Tree → CellId → Eval Tree
  | 0, _, _ => throw .depthExhausted
  | rounds + 1, reversed, x => do
    match ← force x with
    | .num n => pure (Tree.pairUp reversed (.num n))
    | .nil => pure (.list reversed.reverse)
    | .pair head tail =>
      let first ← find head
      materializeWith force find rounds (first :: reversed) tail
    | .func _ => Eval.fault .functionInTree

/-- The tree of a cell, with everything in it forced. -/
def materialize : Nat → CellId → Eval Tree
  | 0, _ => throw .depthExhausted
  | depth + 1, x => materializeWith (force depth) (materialize depth) (depth + 1) [] x

/-- How a tree is shown, if all its integers are within the limit. -/
def showTree (tree : Tree) : Eval String :=
  if tree.writable then pure tree.text else throw .oversizeNumber

/-- The text of the tree of a cell. -/
def render (depth : Nat) (x : CellId) : Eval String := do
  showTree (← materialize depth x)

/-- The tokens of an expression that builds the data of a cell. -/
def sourceTokens : Nat → CellId → Eval (List Token)
  | 0, _ => throw .depthExhausted
  | depth + 1, x => do
    match ← force depth x with
    | .num n => if writable n then pure [.number (.ofInt n)] else throw .oversizeNumber
    | .nil => pure [.symbol "nil"]
    | .pair head tail =>
      let first ← sourceTokens depth head
      let second ← sourceTokens depth tail
      pure (.ap :: .ap :: .symbol "cons" :: (first ++ second))
    | .func _ => Eval.fault .functionInSource

/-- The source text of an expression that builds the data of a cell. -/
def source (depth : Nat) (x : CellId) : Eval String := do
  return unlex (← sourceTokens depth x)

end ByNeed
