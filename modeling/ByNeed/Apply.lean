/-
**Application.**

Applying a cell never runs a suspension. A suspended cell applied to an argument is a new
suspension; a value is applied on the spot:

* a function is given the argument: it stores it, or does its work, or suspends its work;
* a pair hands its halves to the argument, one after the other;
* the empty list answers true;
* a number cannot be applied.

Swapping, composing and handing over halves apply further cells, so application nests; its depth is
the first argument of `apply`, and only a head that holds a value uses it up.
-/

import ByNeed.Store

namespace ByNeed

/-- The half of a value that is a pair. -/
def Value.half (side : Half) (v : Value) : Eval CellId :=
  match v, side with
  | .pair head _, .head => pure head
  | .pair _ tail, .tail => pure tail
  | v, side => Eval.fault (.halfOf side v.kind)

/-- The half of a cell: at hand if the cell holds a value, and else suspended. -/
def takeHalf (side : Half) (x : CellId) : Eval CellId := do
  match ← Eval.cell x with
  | .value v => v.half side
  | .suspended _ => Eval.suspend (.half side x)

/-- Give a function its argument. Work that applies further cells does so with `apply`. -/
@[specialize]
def Func.call (apply : CellId → CellId → Eval CellId) (f : Func) (x : CellId) : Eval CellId :=
  match f with
  | .unary (.monop op) => Eval.suspend (.monop op x)
  | .unary .isNil => Eval.suspend (.isNil x)
  | .unary (.half side) => takeHalf side x
  | .unary (.itself _) => pure x
  | .binary f => Eval.value (.func (.binaryOn f x))
  | .binaryOn (.binop op) a => Eval.suspend (.binop op a x)
  | .binaryOn .cons a => Eval.value (.pair a x)
  | .binaryOn (.first _) a => pure a
  | .binaryOn (.second _) _ => pure x
  | .binaryOn .never _ => Eval.value (boolean false)
  | .ternary f => Eval.value (.func (.ternaryOn f x))
  | .ternaryOn f a => Eval.value (.func (.ternaryOnTwo f a x))
  | .ternaryOnTwo .share a b => Eval.suspend (.share a b x)
  | .ternaryOnTwo .swap a b => do apply (← apply a x) b
  | .ternaryOnTwo .compose a b => do apply a (← apply b x)
  | .ternaryOnTwo (.first _) a _ => pure a
  | .ternaryOnTwo (.second _) _ b => pure b
  | .ternaryOnTwo (.third _) _ _ => pure x

/-- Apply a value. Further cells are applied with `apply`. -/
@[specialize]
def Value.applyWith (apply : CellId → CellId → Eval CellId) (v : Value) (x : CellId) :
    Eval CellId :=
  match v with
  | .func f => f.call apply x
  | .pair head tail => do apply (← apply x head) tail
  | .nil => Eval.value (boolean true)
  | .num n => Eval.faultShowing .appliedNumber n

/-- Apply a cell, given how to apply the value it may hold. -/
@[inline]
def applyCellWith (applyValue : Value → CellId → Eval CellId) (f x : CellId) : Eval CellId := do
  match ← Eval.cell f with
  | .suspended _ => Eval.suspend (.apply f x)
  | .value v => applyValue v x

/-- Apply a cell to a cell, nesting at most `depth` applications of values. -/
def apply : Nat → CellId → CellId → Eval CellId
  | 0 => applyCellWith fun _ _ => throw .depthExhausted
  | depth + 1 => applyCellWith fun v x => v.applyWith (apply depth) x

/-- Apply a cell to several cells, the first of them first. -/
def applyAll (depth : Nat) (f : CellId) (args : List CellId) : Eval CellId :=
  args.foldlM (apply depth) f

end ByNeed
