/-
**Forcing.**

To force a cell is to ask for its value. A cell that holds one answers it; a suspension is run, and
if it produces a value the value takes its place, so that it is never run again. If it fails, the
cell keeps its suspension, while cells that were given their values on the way keep those.

* `Suspension.run`: what running does, given how to force and how to apply;
* `isNil`: whether a cell is the empty list; a function is asked with two numbers, of which one that
  behaves like the empty list picks the first and one that behaves like a pair the second;
* `force`: the value of a cell, nesting at most `depth` runs.
-/

import ByNeed.Apply

namespace ByNeed

/-! ### Arithmetic -/

/-- The quotient rounded toward zero. -/
def quotient (x y : Int) : Except Fault Int :=
  if y = 0 then .error .divisionByZero else .ok (x.tdiv y)

/-- The quotient of two written integers. -/
def Numeral.quotient (x y : Numeral) : Except Failure Int := do
  let m ← x.read
  let n ← y.read
  (ByNeed.quotient m n).mapError .fault

/-- The value that an operation on two integers answers. -/
def Binop.apply (op : Binop) (x y : Int) : Except Fault Value :=
  match op with
  | .add => .ok (.num (x + y))
  | .mul => .ok (.num (x * y))
  | .div => (quotient x y).map .num
  | .eq => .ok (boolean (x == y))
  | .lt => .ok (boolean (x < y))

/-- The integer of a value that is a number. -/
def Value.toInt (operation : String) (v : Value) : Eval Int :=
  match v with
  | .num n => pure n
  | v => Eval.fault (.notANumber operation v.kind)

/-! ### Asking for the empty list -/

/-- The number that a function like the empty list picks. -/
def nilMark : Int := 123

/-- The number that a function like a pair picks. -/
def pairMark : Int := 456

/-- Ask a function to choose between the two numbers, after it has been given a function that always
answers false. -/
@[specialize]
def questionWith (apply : CellId → CellId → Eval CellId) (f : Func) : Eval CellId := do
  let asked ← Eval.value (.func f)
  let never ← Eval.value (.func (.binary .never))
  let first ← Eval.value (.num nilMark)
  let second ← Eval.value (.num pairMark)
  [never, first, second].foldlM apply asked

/-- Force the answer to the question put to a function of the given name; a fault on the way is the
cause of the fault that the function is neither an empty list nor a pair. -/
@[inline]
def answerWith (force : CellId → Eval Value) (name : Option String) (question : CellId) :
    Eval Value := do
  match ← Eval.outcome (force question) with
  | .ok v => pure v
  | .error (.fault cause) => Eval.fault (.isNilFailed name cause)
  | .error failure => throw failure

/-- Whether a cell is the empty list, given how to force and how to apply. -/
@[specialize]
def isNilWith (force : CellId → Eval Value) (apply : CellId → CellId → Eval CellId) (x : CellId) :
    Eval Bool := do
  match ← force x with
  | .nil => pure true
  | .pair _ _ => pure false
  | .num _ => Eval.fault .isNilOfNumber
  | .func f =>
    let question ← questionWith apply f
    let answer ← answerWith force f.name question
    if answer = .num nilMark then pure true
    else if answer = .num pairMark then pure false
    else Eval.fault (.isNilOfFunction f.name)

/-! ### Running -/

/-- Run a suspension, given how to force and how to apply. -/
@[specialize]
def Suspension.run (force : CellId → Eval Value) (apply : CellId → CellId → Eval CellId)
    (s : Suspension) : Eval Value := do
  match s with
  | .apply f x =>
    let v ← force f
    force (← v.applyWith apply x)
  | .half side x =>
    let v ← force x
    force (← v.half side)
  | .lookup t name =>
    match ((← get).table t).lookup name with
    | some x => force x
    | none => Eval.fault (.undefinedSymbol name)
  | .observe label x =>
    Eval.observe label
    force x
  | .monop op x =>
    let n ← (← force x).toInt op.name
    pure (.num (op.apply n))
  | .binop op x y =>
    let m ← (← force x).toInt op.name
    let n ← (← force y).toInt op.name
    Eval.ofExcept ((op.apply m n).mapError .fault)
  | .isNil x =>
    return boolean (← isNilWith force apply x)
  | .share a b c =>
    let f ← apply a c
    let x ← apply b c
    force (← apply f x)

/-- The value of a cell, given how to run the suspension it may hold. A value that a suspension
produces takes its place. -/
@[inline]
def forceCellWith (run : Suspension → Eval Value) (x : CellId) : Eval Value := do
  match ← Eval.cell x with
  | .value v => pure v
  | .suspended s =>
    let v ← run s
    Eval.commit x v
    pure v

/-- The value of a cell, nesting at most `depth` runs of suspensions. -/
def force : Nat → CellId → Eval Value
  | 0 => forceCellWith fun _ => throw .depthExhausted
  | depth + 1 => forceCellWith fun s => s.run (force depth) (apply depth)

/-- Whether a cell is the empty list. -/
def isNil (depth : Nat) (x : CellId) : Eval Bool :=
  isNilWith (force depth) (apply depth) x

end ByNeed
