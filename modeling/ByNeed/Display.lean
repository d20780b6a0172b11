/-
**Display.**

Cells and environments are shown as they are in a store, and nothing is forced for it. A suspended
cell shows only that it is one; a cell with a value shows it, with the halves of a pair in the same
way. A pair may lead back to itself, so the nesting of pairs that is shown is bounded by a depth.

* `showCell`, `showValue`: how a cell or a value is shown;
* `showBindings`, `showEnvironment`: the names of an environment with their cells, in the order in
  which they were defined, and the same under a heading.
-/

import ByNeed.Store

namespace ByNeed.Store

/-- How a number within the limit is shown. -/
def showNumber (n : Int) : Except Failure String :=
  if writable n then .ok ("Num(" ++ decimal n ++ ")") else .error .oversizeNumber

/-- How a value is shown, given how the halves of a pair are. -/
@[inline]
def showValueWith (showHalf : CellId → Except Failure String) : Value → Except Failure String
  | .num n => showNumber n
  | .nil => .ok "nil"
  | .pair head tail => do
    let first ← showHalf head
    let second ← showHalf tail
    .ok ("Cons(" ++ first ++ ", " ++ second ++ ")")
  | .func f => .ok (showFunc f.name)

/-- How a cell is shown, given how its value is. -/
@[inline]
def showCellWith (store : Store) (showValue : Value → Except Failure String) (x : CellId) :
    Except Failure String :=
  match store.cell x with
  | .suspended _ => .ok "Expr(<thunk>)"
  | .value v => do
    let shown ← showValue v
    .ok ("Expr(" ++ shown ++ ")")

/-- How a cell is shown, with pairs nested at most `depth` times. -/
def showCell (store : Store) : Nat → CellId → Except Failure String
  | 0 => store.showCellWith (showValueWith fun _ => .error .depthExhausted)
  | depth + 1 => store.showCellWith (showValueWith (store.showCell depth))

/-- How a value is shown, with pairs nested in it at most `depth` times. -/
def showValue (store : Store) (depth : Nat) : Value → Except Failure String :=
  showValueWith (store.showCell depth)

/-- The names of an environment with their cells. -/
def showBindings (store : Store) (depth : Nat) (env : TableId) : Except Failure String := do
  let shown ← (store.table env).mapM fun (name, x) => do
    let cell ← store.showCell depth x
    .ok (name ++ ": " ++ cell)
  .ok ("\x7b" ++ String.intercalate ", " shown ++ "\x7d")

/-- The names of an environment with their cells, under a heading. -/
def showEnvironment (store : Store) (depth : Nat) (env : TableId) : Except Failure String := do
  let shown ← store.showBindings depth env
  .ok ("<Environment: " ++ shown ++ ">")

end ByNeed.Store
