/-
**Values.**

A value is what is left of an expression once its head is known: an integer, the empty list, a pair
of two cells, or a function of one cell. Functions of two and three arguments take them one by one,
so a partial application is a function that holds the arguments it has already been given:

* `Value.kind`: which of the four a value is;
* `Func.name`: the name a function carries, which its partial applications keep;
* `boolean`: the two truth values, which pick the first or the second of two arguments.
-/

namespace ByNeed

/-- The place of a cell in the store. -/
structure CellId where
  index : Nat
deriving DecidableEq

/-- The place of a table of definitions in the store. -/
structure TableId where
  index : Nat
deriving DecidableEq

/-! ### Operations -/

/-- One of the two halves of a pair. -/
inductive Half
  | head
  | tail
deriving DecidableEq

/-- The name of the function that takes the half. -/
def Half.name : Half → String
  | .head => "car"
  | .tail => "cdr"

/-- Arithmetic on one integer. -/
inductive Monop
  | inc
  | dec
  | neg
deriving DecidableEq

namespace Monop

/-- The name of an operation in source text. -/
def name : Monop → String
  | .inc => "inc"
  | .dec => "dec"
  | .neg => "neg"

/-- The integer that the operation answers. -/
def apply : Monop → Int → Int
  | .inc, n => n + 1
  | .dec, n => n - 1
  | .neg, n => -n

end Monop

/-- Arithmetic and comparison on two integers. -/
inductive Binop
  | add
  | mul
  | div
  | eq
  | lt
deriving DecidableEq

/-- The name of an operation in source text. -/
def Binop.name : Binop → String
  | .add => "add"
  | .mul => "mul"
  | .div => "div"
  | .eq => "eq"
  | .lt => "lt"

/-! ### Functions -/

/-- What a function of one argument does with it. -/
inductive Unary
  /-- Ask for the result of an operation on it. -/
  | monop (op : Monop)
  /-- Ask whether it is the empty list. -/
  | isNil
  /-- Take a half of it. -/
  | half (side : Half)
  /-- Answer it as it is. -/
  | itself (name : Option String)
deriving DecidableEq

/-- What a function of two arguments does with them. -/
inductive Binary
  /-- Ask for the result of an operation on them. -/
  | binop (op : Binop)
  /-- Make a pair of them. -/
  | cons
  /-- Answer one of them as it is. -/
  | first (name : Option String)
  | second (name : Option String)
  /-- Answer the false truth value, whatever they are. -/
  | never
deriving DecidableEq

/-- What a function of three arguments does with them. -/
inductive Ternary
  /-- Ask for the first applied to the third, applied to the second applied to the third. -/
  | share
  /-- Apply the first to the third, and the result to the second. -/
  | swap
  /-- Apply the first to the second applied to the third. -/
  | compose
  /-- Answer one of them as it is. -/
  | first (name : Option String)
  | second (name : Option String)
  | third (name : Option String)
deriving DecidableEq

/-- A function, with the arguments it holds already. -/
inductive Func
  | unary (f : Unary)
  | binary (f : Binary)
  | binaryOn (f : Binary) (x : CellId)
  | ternary (f : Ternary)
  | ternaryOn (f : Ternary) (x : CellId)
  | ternaryOnTwo (f : Ternary) (x y : CellId)
deriving DecidableEq

/-- The name of a function of one argument, if it has one. -/
def Unary.name : Unary → Option String
  | .monop op => some op.name
  | .isNil => some "isnil"
  | .half side => some side.name
  | .itself name => name

/-- The name of a function of two arguments, if it has one. -/
def Binary.name : Binary → Option String
  | .binop op => some op.name
  | .cons => some "cons"
  | .first name => name
  | .second name => name
  | .never => none

/-- The name of a function of three arguments, if it has one. -/
def Ternary.name : Ternary → Option String
  | .share => some "s"
  | .swap => some "c"
  | .compose => some "b"
  | .first name => name
  | .second name => name
  | .third name => name

/-- The name of a function; a partial application keeps it. -/
def Func.name : Func → Option String
  | .unary f => f.name
  | .binary f => f.name
  | .binaryOn f _ => f.name
  | .ternary f => f.name
  | .ternaryOn f _ => f.name
  | .ternaryOnTwo f _ _ => f.name

/-- The arguments that a function holds already. -/
def Func.held : Func → List CellId
  | .unary _ => []
  | .binary _ => []
  | .binaryOn _ x => [x]
  | .ternary _ => []
  | .ternaryOn _ x => [x]
  | .ternaryOnTwo _ x y => [x, y]

/-- A function that holds no argument yet. -/
abbrev BareFunc := { f : Func // f.held = [] }

/-- The function of `arity` arguments that answers its argument number `pick`, counted from zero, if
there is such an argument and the arity is one, two or three. -/
def Func.select? (arity pick : Nat) (name : Option String) : Option BareFunc :=
  match arity, pick with
  | 1, 0 => some ⟨.unary (.itself name), rfl⟩
  | 2, 0 => some ⟨.binary (.first name), rfl⟩
  | 2, 1 => some ⟨.binary (.second name), rfl⟩
  | 3, 0 => some ⟨.ternary (.first name), rfl⟩
  | 3, 1 => some ⟨.ternary (.second name), rfl⟩
  | 3, 2 => some ⟨.ternary (.third name), rfl⟩
  | _, _ => none

/-! ### Values -/

/-- A value: nothing that it refers to has to be known. -/
inductive Value
  | num (n : Int)
  | nil
  | pair (head tail : CellId)
  | func (f : Func)
deriving DecidableEq

/-- The four kinds of values. -/
inductive Kind
  | number
  | nil
  | pair
  | function
deriving DecidableEq

/-- The word for a kind in messages. -/
def Kind.word : Kind → String
  | .number => "number"
  | .nil => "nil"
  | .pair => "cons"
  | .function => "func"

/-- Which of the four a value is. -/
def Value.kind : Value → Kind
  | .num _ => .number
  | .nil => .nil
  | .pair _ _ => .pair
  | .func _ => .function

/-- The truth values: true picks the first of two arguments, false the second. -/
def boolean (truth : Bool) : Value :=
  if truth then .func (.binary (.first (some "t"))) else .func (.binary (.second (some "f")))

end ByNeed
