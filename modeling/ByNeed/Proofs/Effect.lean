/-
**What applying does.**

Applying a value to a cell does one of a few things, whatever the value is: it answers a cell at hand,
adds a cell, takes a half, applies one or two further cells, or refuses (`Effect`). What holds of
applying is shown for each effect, and not for each function. Values, suspensions and effects refer to
cells, and are alike for a relation of cells if they differ only in cells that are so related. Alike
values have alike effects on related cells.

* `Value.effect`, `applyWith_eq_run`: the effect of a value, and that applying is running it;
* `Value.Like`, `Suspension.Like`, `Effect.Like`: **the same up to a relation of cells**;
* `Value.Like.effect`: alike values do alike things.
-/

import ByNeed.Proofs.Representation

namespace ByNeed

/-! ### Effects -/

/-- What is done to apply a value to a cell. -/
inductive Effect
  /-- Answer a cell. -/
  | answer (x : CellId)
  /-- Add a cell. -/
  | add (c : Cell)
  /-- Take a half of a cell. -/
  | take (side : Half) (x : CellId)
  /-- Apply a cell to a cell. -/
  | apply (f x : CellId)
  /-- Apply the first cell to the second, and the result to the third. -/
  | applyTwice (f x y : CellId)
  /-- Apply the first cell to the second applied to the third. -/
  | applyNested (f g x : CellId)
  /-- Refuse to apply a number. -/
  | refuse (n : Int)

/-- Bring about an effect, given how to apply cells. -/
def Effect.run (apply : CellId → CellId → Eval CellId) : Effect → Eval CellId
  | .answer x => pure x
  | .add c => Eval.alloc c
  | .take side x => takeHalf side x
  | .apply f x => apply f x
  | .applyTwice f x y => do apply (← apply f x) y
  | .applyNested f g x => do apply f (← apply g x)
  | .refuse n => Eval.faultShowing .appliedNumber n

/-- The effect of giving a function its argument. -/
def Func.effect (f : Func) (x : CellId) : Effect :=
  match f with
  | .unary (.monop op) => .add (.suspended (.monop op x))
  | .unary .isNil => .add (.suspended (.isNil x))
  | .unary (.half side) => .take side x
  | .unary (.itself _) => .answer x
  | .binary f => .add (.value (.func (.binaryOn f x)))
  | .binaryOn (.binop op) a => .add (.suspended (.binop op a x))
  | .binaryOn .cons a => .add (.value (.pair a x))
  | .binaryOn (.first _) a => .answer a
  | .binaryOn (.second _) _ => .answer x
  | .binaryOn .never _ => .add (.value (boolean false))
  | .ternary f => .add (.value (.func (.ternaryOn f x)))
  | .ternaryOn f a => .add (.value (.func (.ternaryOnTwo f a x)))
  | .ternaryOnTwo .share a b => .add (.suspended (.share a b x))
  | .ternaryOnTwo .swap a b => .applyTwice a x b
  | .ternaryOnTwo .compose a b => .applyNested a b x
  | .ternaryOnTwo (.first _) a _ => .answer a
  | .ternaryOnTwo (.second _) _ b => .answer b
  | .ternaryOnTwo (.third _) _ _ => .answer x

/-- The effect of applying a value. -/
def Value.effect (v : Value) (x : CellId) : Effect :=
  match v with
  | .func f => f.effect x
  | .pair head tail => .applyTwice x head tail
  | .nil => .add (.value (boolean true))
  | .num n => .refuse n

theorem call_eq_run (apply : CellId → CellId → Eval CellId) (f : Func) (x : CellId) :
    f.call apply x = (f.effect x).run apply := by
  cases f with
  | unary f => cases f <;> rfl
  | binary f => rfl
  | binaryOn f a => cases f <;> rfl
  | ternary f => rfl
  | ternaryOn f a => rfl
  | ternaryOnTwo f a b => cases f <;> rfl

/-- **Applying a value is running its effect.** -/
theorem applyWith_eq_run (apply : CellId → CellId → Eval CellId) (v : Value) (x : CellId) :
    v.applyWith apply x = (v.effect x).run apply := by
  cases v with
  | func f => exact call_eq_run apply f x
  | _ => rfl

/-! ### Cells referred to -/

/-- The cells that what a cell holds refers to. -/
def Cell.cells : Cell → List CellId
  | .value v => v.cells
  | .suspended s => s.cells

/-- The cells that an effect refers to. -/
def Effect.cells : Effect → List CellId
  | .answer x => [x]
  | .add c => c.cells
  | .take _ x => [x]
  | .apply f x => [f, x]
  | .applyTwice f x y => [f, x, y]
  | .applyNested f g x => [f, g, x]
  | .refuse _ => []

@[simp]
theorem cells_boolean (truth : Bool) : (boolean truth).cells = [] := by
  cases truth <;> rfl

/-- An operation on integers answers a value that refers to no cells. -/
theorem Binop.cells_of_apply {op : Binop} {m n : Int} {v : Value} (answered : op.apply m n = .ok v) :
    v.cells = [] := by
  cases op with
  | add | mul =>
    cases answered
    rfl
  | eq | lt =>
    cases answered
    exact cells_boolean _
  | div =>
    simp only [Binop.apply, quotient] at answered
    split at answered
    · cases answered
    · cases answered
      rfl

/-- The effect of a value refers to its cells and the argument. -/
theorem Value.cells_effect (v : Value) (x : CellId) : (v.effect x).cells ⊆ x :: v.cells := by
  cases v with
  | num n => simp [Value.effect, Effect.cells]
  | nil => simp [Value.effect, Effect.cells, Cell.cells, boolean, Value.cells, Func.held]
  | pair head tail => simp [Value.effect, Effect.cells, Value.cells]
  | func f =>
    cases f with
    | unary f =>
      cases f <;> simp [Value.effect, Func.effect, Effect.cells, Cell.cells, Suspension.cells]
    | binary f =>
      simp [Value.effect, Func.effect, Effect.cells, Cell.cells, Value.cells, Func.held]
    | binaryOn f a =>
      cases f <;> simp [Value.effect, Func.effect, Effect.cells, Cell.cells, Suspension.cells,
        Value.cells, Func.held, boolean]
    | ternary f =>
      simp [Value.effect, Func.effect, Effect.cells, Cell.cells, Value.cells, Func.held]
    | ternaryOn f a =>
      simp [Value.effect, Func.effect, Effect.cells, Cell.cells, Value.cells, Func.held]
    | ternaryOnTwo f a b =>
      cases f <;> simp [Value.effect, Func.effect, Effect.cells, Cell.cells, Suspension.cells,
        Value.cells, Func.held]

/-! ### Alike up to cells -/

section Like

variable (P : CellId → CellId → Prop)

/-- Functions that differ in related cells only. -/
inductive Func.Like : Func → Func → Prop
  | unary (f : Unary) : Like (.unary f) (.unary f)
  | binary (f : Binary) : Like (.binary f) (.binary f)
  | binaryOn (f : Binary) {x x' : CellId} : P x x' → Like (.binaryOn f x) (.binaryOn f x')
  | ternary (f : Ternary) : Like (.ternary f) (.ternary f)
  | ternaryOn (f : Ternary) {x x' : CellId} : P x x' → Like (.ternaryOn f x) (.ternaryOn f x')
  | ternaryOnTwo (f : Ternary) {x x' y y' : CellId} : P x x' → P y y' →
      Like (.ternaryOnTwo f x y) (.ternaryOnTwo f x' y')

/-- **Values that differ in related cells only.** -/
inductive Value.Like : Value → Value → Prop
  | num (n : Int) : Like (.num n) (.num n)
  | nil : Like .nil .nil
  | pair {x x' y y' : CellId} : P x x' → P y y' → Like (.pair x y) (.pair x' y')
  | func {f f' : Func} : f.Like P f' → Like (.func f) (.func f')

/-- **Suspensions that differ in related cells only.** -/
inductive Suspension.Like : Suspension → Suspension → Prop
  | apply {f f' x x' : CellId} : P f f' → P x x' → Like (.apply f x) (.apply f' x')
  | half (side : Half) {x x' : CellId} : P x x' → Like (.half side x) (.half side x')
  | lookup (table : TableId) (name : String) : Like (.lookup table name) (.lookup table name)
  | observe (label : String) {x x' : CellId} : P x x' → Like (.observe label x) (.observe label x')
  | monop (op : Monop) {x x' : CellId} : P x x' → Like (.monop op x) (.monop op x')
  | binop (op : Binop) {x x' y y' : CellId} : P x x' → P y y' →
      Like (.binop op x y) (.binop op x' y')
  | isNil {x x' : CellId} : P x x' → Like (.isNil x) (.isNil x')
  | share {a a' b b' c c' : CellId} : P a a' → P b b' → P c c' →
      Like (.share a b c) (.share a' b' c')

/-- Cells whose contents differ in related cells only. -/
inductive Cell.Like : Cell → Cell → Prop
  | value {v v' : Value} : v.Like P v' → Like (.value v) (.value v')
  | suspended {s s' : Suspension} : s.Like P s' → Like (.suspended s) (.suspended s')

/-- **Effects that differ in related cells only.** -/
inductive Effect.Like : Effect → Effect → Prop
  | answer {x x' : CellId} : P x x' → Like (.answer x) (.answer x')
  | add {c c' : Cell} : c.Like P c' → Like (.add c) (.add c')
  | take (side : Half) {x x' : CellId} : P x x' → Like (.take side x) (.take side x')
  | apply {f f' x x' : CellId} : P f f' → P x x' → Like (.apply f x) (.apply f' x')
  | applyTwice {f f' x x' y y' : CellId} : P f f' → P x x' → P y y' →
      Like (.applyTwice f x y) (.applyTwice f' x' y')
  | applyNested {f f' g g' x x' : CellId} : P f f' → P g g' → P x x' →
      Like (.applyNested f g x) (.applyNested f' g' x')
  | refuse (n : Int) : Like (.refuse n) (.refuse n)

variable {P} {Q : CellId → CellId → Prop} {v v' : Value} {s s' : Suspension} {c c' : Cell}
  {x x' : CellId}

theorem Value.Like.boolean (truth : Bool) :
    (ByNeed.boolean truth).Like P (ByNeed.boolean truth) := by
  cases truth with
  | true => exact .func (.binary _)
  | false => exact .func (.binary _)

theorem Func.Like.effect {f f' : Func} (like : f.Like P f') (argument : P x x') :
    (f.effect x).Like P (f'.effect x') := by
  cases like with
  | unary f =>
    cases f with
    | monop op => exact .add (.suspended (.monop op argument))
    | isNil => exact .add (.suspended (.isNil argument))
    | half side => exact .take side argument
    | itself name => exact .answer argument
  | binary f => exact .add (.value (.func (.binaryOn f argument)))
  | binaryOn f held =>
    cases f with
    | binop op => exact .add (.suspended (.binop op held argument))
    | cons => exact .add (.value (.pair held argument))
    | first name => exact .answer held
    | second name => exact .answer argument
    | never => exact .add (.value (.boolean false))
  | ternary f => exact .add (.value (.func (.ternaryOn f argument)))
  | ternaryOn f held => exact .add (.value (.func (.ternaryOnTwo f held argument)))
  | ternaryOnTwo f first second =>
    cases f with
    | share => exact .add (.suspended (.share first second argument))
    | swap => exact .applyTwice first argument second
    | compose => exact .applyNested first second argument
    | first name => exact .answer first
    | second name => exact .answer second
    | third name => exact .answer argument

/-- **Alike values do alike things to related cells.** -/
theorem Value.Like.effect (like : v.Like P v') (argument : P x x') :
    (v.effect x).Like P (v'.effect x') := by
  cases like with
  | num n => exact .refuse n
  | nil => exact .add (.value (.boolean true))
  | pair first second => exact .applyTwice argument first second
  | func functions => exact functions.effect argument

theorem Value.Like.mono (like : v.Like P v') (weaker : ∀ {x y}, P x y → Q x y) : v.Like Q v' := by
  cases like with
  | num n => exact .num n
  | nil => exact .nil
  | pair first second => exact .pair (weaker first) (weaker second)
  | func functions =>
    cases functions with
    | unary f => exact .func (.unary f)
    | binary f => exact .func (.binary f)
    | binaryOn f held => exact .func (.binaryOn f (weaker held))
    | ternary f => exact .func (.ternary f)
    | ternaryOn f held => exact .func (.ternaryOn f (weaker held))
    | ternaryOnTwo f first second => exact .func (.ternaryOnTwo f (weaker first) (weaker second))

theorem Suspension.Like.mono (like : s.Like P s') (weaker : ∀ {x y}, P x y → Q x y) :
    s.Like Q s' := by
  cases like with
  | apply operator argument => exact .apply (weaker operator) (weaker argument)
  | half side whole => exact .half side (weaker whole)
  | lookup table name => exact .lookup table name
  | observe label observed => exact .observe label (weaker observed)
  | monop op operand => exact .monop op (weaker operand)
  | binop op first second => exact .binop op (weaker first) (weaker second)
  | isNil asked => exact .isNil (weaker asked)
  | share first second shared => exact .share (weaker first) (weaker second) (weaker shared)

/-- A value is like itself if its cells are. -/
theorem Value.Like.refl (v : Value) (same : ∀ x ∈ v.cells, P x x) : v.Like P v := by
  cases v with
  | num n => exact .num n
  | nil => exact .nil
  | pair head tail =>
    exact .pair (same head (by simp [Value.cells])) (same tail (by simp [Value.cells]))
  | func f =>
    cases f with
    | unary f => exact .func (.unary f)
    | binary f => exact .func (.binary f)
    | binaryOn f x => exact .func (.binaryOn f (same x (by simp [Value.cells, Func.held])))
    | ternary f => exact .func (.ternary f)
    | ternaryOn f x => exact .func (.ternaryOn f (same x (by simp [Value.cells, Func.held])))
    | ternaryOnTwo f x y =>
      exact .func (.ternaryOnTwo f (same x (by simp [Value.cells, Func.held]))
        (same y (by simp [Value.cells, Func.held])))

/-- A value that refers to no cells is like itself. -/
theorem Value.Like.of_cells_eq_nil (bare : v.cells = []) : v.Like P v :=
  .refl v (bare ▸ fun _ member => nomatch member)

theorem Suspension.Like.refl (s : Suspension) (same : ∀ x ∈ s.cells, P x x) : s.Like P s := by
  cases s with
  | apply f x =>
    exact .apply (same f (by simp [Suspension.cells])) (same x (by simp [Suspension.cells]))
  | half side x => exact .half side (same x (by simp [Suspension.cells]))
  | lookup table name => exact .lookup table name
  | observe label x => exact .observe label (same x (by simp [Suspension.cells]))
  | monop op x => exact .monop op (same x (by simp [Suspension.cells]))
  | binop op x y =>
    exact .binop op (same x (by simp [Suspension.cells])) (same y (by simp [Suspension.cells]))
  | isNil x => exact .isNil (same x (by simp [Suspension.cells]))
  | share a b c =>
    exact .share (same a (by simp [Suspension.cells])) (same b (by simp [Suspension.cells]))
      (same c (by simp [Suspension.cells]))

theorem Cell.Like.refl (c : Cell) (same : ∀ x ∈ c.cells, P x x) : c.Like P c := by
  cases c with
  | value v => exact .value (.refl v same)
  | suspended s => exact .suspended (.refl s same)

end Like

end ByNeed
