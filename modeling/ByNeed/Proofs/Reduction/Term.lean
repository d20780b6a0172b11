/-
**Call-by-name terms.**

A term is an integer, the empty list, a name, a primitive function, or an application. It is reduced
only as far as its head is demanded: nothing is shared, nothing is remembered, and no application is
reduced before its result is asked for.

What a term does when it is demanded is its *action*:

* `Term.action`: the action of a term;
* `Whnf.apply`: the action of a weak head normal form that is applied to a term;
* `Frame.resume`: the action that goes on once a demanded term has been answered.

A name stands for a term by way of a glossary, which only `Action.Continues` reads.
-/

import ByNeed.Store

namespace ByNeed.Reduction

/-! ### Terms and weak head normal forms -/

/-- A term of the language. A name carries the table in which it is looked up. -/
inductive Term
  | num (n : Int)
  | nil
  | name (table : TableId) (word : String)
  | unary (f : Unary)
  | binary (f : Binary)
  | ternary (f : Ternary)
  | app (f x : Term)

/-- What is left of a term once its head is known. A function may hold some of its arguments. -/
inductive Whnf
  | num (n : Int)
  | nil
  | pair (head tail : Term)
  | unary (f : Unary)
  | binary (f : Binary)
  | binaryOn (f : Binary) (x : Term)
  | ternary (f : Ternary)
  | ternaryOn (f : Ternary) (x : Term)
  | ternaryOnTwo (f : Ternary) (x y : Term)

/-- The truth values: true picks the first of two arguments, false the second. -/
def truth : Bool → Whnf
  | true => .binary (.first (some "t"))
  | false => .binary (.second (some "f"))

/-- What the names of each table stand for. -/
abbrev Glossary := TableId → String → Option Term

/-! ### Actions -/

/-- What is still to be done with the answer to a demand. -/
inductive Frame
  /-- Apply it to an argument. -/
  | argument (x : Term)
  /-- Take a half of it. -/
  | half (side : Half)
  | monop (op : Monop)
  /-- It is the first operand, and the second is to be demanded. -/
  | firstOperand (op : Binop) (y : Term)
  /-- It is the second operand. -/
  | secondOperand (op : Binop) (m : Int)
  /-- It says whether the term is the empty list, or is a function that is to be asked. -/
  | isNil (x : Term)
  /-- It is one of the two marks that a function was given to choose from. -/
  | mark

/-- What a term does when it is demanded. -/
inductive Action
  /-- It is in weak head normal form. -/
  | answer (w : Whnf)
  /-- It is a mistake. -/
  | fail (c : Category)
  /-- It is another term. -/
  | become (t : Term)
  /-- It is what a name stands for. -/
  | lookup (table : TableId) (word : String)
  /-- It demands a term, and goes on with the answer. -/
  | demand (t : Term) (k : Frame)

/-- The action of a term. -/
def Term.action : Term → Action
  | .num n => .answer (.num n)
  | .nil => .answer .nil
  | .name table word => .lookup table word
  | .unary f => .answer (.unary f)
  | .binary f => .answer (.binary f)
  | .ternary f => .answer (.ternary f)
  | .app f x => .demand f (.argument x)

/-- The half of a pair. -/
def pick (side : Half) (head tail : Term) : Term :=
  match side with
  | .head => head
  | .tail => tail

/-- The action of a function that is given its only argument. -/
def applyUnary (f : Unary) (x : Term) : Action :=
  match f with
  | .monop op => .demand x (.monop op)
  | .isNil => .demand x (.isNil x)
  | .half side => .demand x (.half side)
  | .itself _ => .become x

/-- The action of a function that is given its second argument. -/
def applyBinary (f : Binary) (a x : Term) : Action :=
  match f with
  | .binop op => .demand a (.firstOperand op x)
  | .cons => .answer (.pair a x)
  | .first _ => .become a
  | .second _ => .become x
  | .never => .answer (truth false)

/-- The action of a function that is given its third argument. -/
def applyTernary (f : Ternary) (a b x : Term) : Action :=
  match f with
  | .share => .become (.app (.app a x) (.app b x))
  | .swap => .become (.app (.app a x) b)
  | .compose => .become (.app a (.app b x))
  | .first _ => .become a
  | .second _ => .become b
  | .third _ => .become x

/-- The action of a weak head normal form that is applied. -/
def Whnf.apply (w : Whnf) (x : Term) : Action :=
  match w with
  | .num _ => .fail .notApplicable
  | .nil => .answer (truth true)
  | .pair head tail => .become (.app (.app x head) tail)
  | .unary f => applyUnary f x
  | .binary f => .answer (.binaryOn f x)
  | .binaryOn f a => applyBinary f a x
  | .ternary f => .answer (.ternaryOn f x)
  | .ternaryOn f a => .answer (.ternaryOnTwo f a x)
  | .ternaryOnTwo f a b => applyTernary f a b x

/-- The action of an operation on two integers. -/
def operate (op : Binop) (m n : Int) : Action :=
  match op with
  | .add => .answer (.num (m + n))
  | .mul => .answer (.num (m * n))
  | .div => if n = 0 then .fail .divisionByZero else .answer (.num (m.tdiv n))
  | .eq => .answer (truth (m == n))
  | .lt => .answer (truth (m < n))

/-- The question whether a function is the empty list: it is given a selector that always answers
false, and two numbers to choose from. -/
def question (x : Term) : Term :=
  .app (.app (.app x (.binary .never)) (.num 123)) (.num 456)

/-- The action of the answer to the question whether a term is the empty list. -/
def Whnf.asked (w : Whnf) (x : Term) : Action :=
  match w with
  | .nil => .answer (truth true)
  | .pair _ _ => .answer (truth false)
  | .num _ => .fail .notAPair
  | _ => .demand (question x) .mark

/-- The action of the number that a function picks: one like the empty list picks the first, and one
like a pair the second. -/
def chosen (n : Int) : Action :=
  if n = 123 then .answer (truth true)
  else if n = 456 then .answer (truth false)
  else .fail .notAPair

/-- The action that goes on once a demanded term has been answered. -/
def Frame.resume (k : Frame) (w : Whnf) : Action :=
  match k with
  | .argument x => w.apply x
  | .half side =>
    match w with
    | .pair head tail => .become (pick side head tail)
    | _ => .fail .notAPair
  | .monop op =>
    match w with
    | .num n => .answer (.num (op.apply n))
    | _ => .fail .notANumber
  | .firstOperand op y =>
    match w with
    | .num m => .demand y (.secondOperand op m)
    | _ => .fail .notANumber
  | .secondOperand op m =>
    match w with
    | .num n => operate op m n
    | _ => .fail .notANumber
  | .isNil x => w.asked x
  | .mark =>
    match w with
    | .num n => chosen n
    | _ => .fail .notAPair

/-- The mistake that a mistake in a demanded term is reported as: a function that fails on the
question whether it is the empty list is neither that nor a pair. -/
def Frame.refuse (k : Frame) (c : Category) : Category :=
  match k with
  | .mark => .notAPair
  | _ => c

end ByNeed.Reduction
