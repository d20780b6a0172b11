/-
**Builtins.**

The names that every full environment starts with: sixteen primitives and three constants. A lazy
primitive suspends its work when its last argument arrives; an eager one does it at once, which
never runs a suspension.
-/

import ByNeed.Environment

namespace ByNeed

/-- When a primitive does its work. -/
inductive Strategy
  | eager
  | lazy
deriving DecidableEq

/-- The word for a strategy. -/
def Strategy.word : Strategy → String
  | .eager => "eager"
  | .lazy => "lazy"

/-- How many arguments a function still takes. -/
def Func.arity : Func → Nat
  | .unary _ => 1
  | .binary _ => 2
  | .binaryOn _ _ => 1
  | .ternary _ => 3
  | .ternaryOn _ _ => 2
  | .ternaryOnTwo _ _ _ => 1

/-- When a function does its work. -/
def Func.strategy : Func → Strategy
  | .unary (.monop _) => .lazy
  | .unary .isNil => .lazy
  | .binary (.binop _) => .lazy
  | .binaryOn (.binop _) _ => .lazy
  | .ternary .share => .lazy
  | .ternaryOn .share _ => .lazy
  | .ternaryOnTwo .share _ _ => .lazy
  | _ => .eager

namespace Builtins

/-- The primitives, in the order in which they are defined. -/
def primitives : List (String × Func) :=
  [("inc", .unary (.monop .inc)), ("dec", .unary (.monop .dec)), ("neg", .unary (.monop .neg)),
    ("add", .binary (.binop .add)), ("mul", .binary (.binop .mul)), ("div", .binary (.binop .div)),
    ("eq", .binary (.binop .eq)), ("lt", .binary (.binop .lt)), ("isnil", .unary .isNil),
    ("s", .ternary .share), ("c", .ternary .swap), ("b", .ternary .compose),
    ("i", .unary (.itself (some "i"))), ("cons", .binary .cons), ("car", .unary (.half .head)),
    ("cdr", .unary (.half .tail))]

/-- The constants, in the order in which they are defined. -/
def constants : List (String × Value) :=
  [("t", boolean true), ("f", boolean false), ("nil", .nil)]

/-- The builtins, in the order in which they are defined. -/
def all : List (String × Value) :=
  primitives.map (fun (name, f) => (name, .func f)) ++ constants

/-- Define the builtins. -/
def register (env : TableId) : Eval Unit :=
  all.forM fun (name, v) => do Environment.define env name (← Eval.value v)

/-- A new environment with the builtins. -/
def create : Eval TableId := do
  let env ← Environment.create
  register env
  pure env

end Builtins

end ByNeed
