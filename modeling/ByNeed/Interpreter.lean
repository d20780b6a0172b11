/-
**Interpreters.**

An interpreter reads expressions against one environment and asks for all of their data. Definitions
and the values of forced cells stay in the store from one call to the next.
-/

import ByNeed.Builtins
import ByNeed.Definitions
import ByNeed.Traversal

namespace ByNeed.Interpreter

/-- The tree of the expression that a text spells. -/
def materialize (depth : Nat) (env : TableId) (code : String) : Eval Tree := do
  ByNeed.materialize depth (← Reader.parse depth env code)

/-- The text of the tree of the expression that a text spells. -/
def eval (depth : Nat) (env : TableId) (code : String) : Eval String := do
  render depth (← Reader.parse depth env code)

/-- A cell that holds the pair of two integers. -/
def point (x y : Int) : Eval CellId := do
  let first ← Eval.value (.num x)
  let second ← Eval.value (.num y)
  Eval.value (.pair first second)

/-- Apply a program to its state and then to a point. -/
def interact (depth : Nat) (program state : CellId) (x y : Int) : Eval CellId := do
  let argument ← point x y
  applyAll depth program [state, argument]

end ByNeed.Interpreter
