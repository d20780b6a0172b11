/-
**Recurrences and their definitions.**

A recurrence starts with a number or the empty list, and goes from a natural number to the next by
putting the next number and what it has come to together: by a sum, a product or a pair. It is
written without a loop, as an expression that mentions the name it is going to be bound to. Building
the expression applies nothing but functions that still take more arguments, so what is built has a
form that can be read off the expression; the name, which is not bound yet, is left to be looked up.

* `Recurrence.datum`: what a recurrence comes to;
* `Recurrence.expression`: how it is written;
* `Form`, `Store.Formed`: functions with the arguments that they hold, in cells of a store;
* `build_formed`: **an expression is built in its form**, by adding cells only;
* `Recurrence.forms`: the form of the expression of a recurrence.
-/

import ByNeed.Proofs.RoundTrip

namespace ByNeed

/-! ### Recurrences -/

/-- Arithmetic that puts the next number and an integer together. -/
inductive Gathering
  | add
  | mul
deriving DecidableEq

namespace Gathering

/-- The primitive of the arithmetic. -/
def binop : Gathering → Binop
  | .add => .add
  | .mul => .mul

/-- The integer that two integers are put together to. -/
def combine : Gathering → Int → Int → Int
  | .add, m, n => m + n
  | .mul, m, n => m * n

/-- The numbers up to a number, put together with an integer to start with. -/
def total (op : Gathering) (start : Int) : Nat → Int
  | 0 => start
  | n + 1 => op.combine (n + 1) (op.total start n)

theorem apply_binop (op : Gathering) (m n : Int) :
    op.binop.apply m n = .ok (.num (op.combine m n)) := by
  cases op <;> rfl

end Gathering

/-- What a recurrence starts with. -/
inductive Start
  | number (numeral : Numeral)
  | nil
deriving DecidableEq

namespace Start

/-- The value to start with. -/
def value : Start → Value
  | .number numeral => .num numeral.toInt
  | .nil => .nil

/-- The data to start with. -/
def datum : Start → Datum
  | .number numeral => .num numeral.toInt
  | .nil => .nil

/-- How it is written. -/
def expression : Start → Expression
  | .number numeral => .number numeral
  | .nil => .symbol "nil"

/-- It is read without passing the limit on digits. -/
def readable : Start → Bool
  | .number numeral => numeral.readable
  | .nil => true

/-- The numbers from a number down to one, in front of what there is to start with. -/
def countdown (start : Start) : Nat → Datum
  | 0 => start.datum
  | n + 1 => .pair (.num (n + 1)) (start.countdown n)

end Start

/-- **A recurrence**: what it starts with, and how it goes from a number to the next. -/
inductive Recurrence
  /-- The next number and an integer are put together by arithmetic. -/
  | arithmetic (op : Gathering) (start : Numeral)
  /-- The next number is paired with what there is. -/
  | pairing (start : Start)
deriving DecidableEq

namespace Recurrence

/-- What the recurrence starts with. -/
def start : Recurrence → Start
  | .arithmetic _ start => .number start
  | .pairing start => start

/-- The primitive that goes from a number to the next. -/
def step : Recurrence → Binary
  | .arithmetic op _ => .binop op.binop
  | .pairing _ => .cons

/-- The name of this primitive in source text. -/
def stepName : Recurrence → String
  | .arithmetic op _ => op.binop.name
  | .pairing _ => "cons"

/-- **What a recurrence comes to** at a natural number. -/
def datum : Recurrence → Nat → Datum
  | .arithmetic op start, n => .num (op.total start.toInt n)
  | .pairing start, n => start.countdown n

/-- Sums, factorials and countdowns are recurrences. -/
example : (Recurrence.arithmetic .add ⟨false, ['0']⟩).datum 4 = .num 10 ∧
    (Recurrence.arithmetic .mul ⟨false, ['1']⟩).datum 4 = .num 24 ∧
    (Recurrence.pairing .nil).datum 2 = .pair (.num 2) (.pair (.num 1) .nil) := by
  decide

/-- **The expression of a recurrence**, given the name that it is going to be bound to: of a number,
what to start with if the number is zero, and else the primitive of it and of the value of the name at
the number before. -/
def expression (recurrence : Recurrence) (name : String) : Expression :=
  .ap
    (.ap (.symbol "s")
      (.ap (.ap (.symbol "c") (.ap (.symbol "eq") (.number ⟨false, ['0']⟩)))
        recurrence.start.expression))
    (.ap (.ap (.symbol "s") (.symbol recurrence.stepName))
      (.ap (.ap (.symbol "b") (.symbol name)) (.symbol "dec")))

theorem datum_zero (recurrence : Recurrence) : recurrence.datum 0 = recurrence.start.datum := by
  cases recurrence <;> rfl

theorem height_datum (recurrence : Recurrence) (n : Nat) : (recurrence.datum n).height ≤ n := by
  cases recurrence with
  | arithmetic op start => exact Nat.zero_le n
  | pairing start =>
    show (start.countdown n).height ≤ n
    induction n with
    | zero => cases start <;> exact Nat.le_refl 0
    | succ n ih =>
      simp only [Start.countdown, Datum.height]
      omega

theorem step_mem_builtins (recurrence : Recurrence) :
    (recurrence.stepName, Value.func (.binary recurrence.step)) ∈ Builtins.all := by
  have arithmetic : ∀ op : Gathering,
      (op.binop.name, Value.func (.binary (.binop op.binop))) ∈ Builtins.all := by
    rintro (_ | _) <;> decide
  have pairing : ("cons", Value.func (.binary .cons)) ∈ Builtins.all := by decide
  cases recurrence with
  | arithmetic op start => exact arithmetic op
  | pairing start => exact pairing

end Recurrence

/-! ### Forms -/

/-- **The form of a cell**: a value, or a name to be looked up, or a function with the forms of the
arguments that it holds. -/
inductive Form
  | value (v : Value)
  | deferred (name : String)
  | binaryOn (f : Binary) (x : Form)
  | ternaryOn (f : Ternary) (x : Form)
  | ternaryOnTwo (f : Ternary) (x y : Form)

/-- The form of the expression of a recurrence. -/
def Recurrence.form (recurrence : Recurrence) (name : String) : Form :=
  .ternaryOnTwo .share
    (.ternaryOnTwo .swap (.binaryOn (.binop .eq) (.value (.num 0))) (.value recurrence.start.value))
    (.ternaryOnTwo .share (.value (.func (.binary recurrence.step)))
      (.ternaryOnTwo .compose (.deferred name) (.value (.func (.unary (.monop .dec))))))

variable {store later : Store} {env : TableId} {x : CellId} {form : Form} {name : String}

/-- **A cell of a store has a form.** -/
def Store.Formed (store : Store) (env : TableId) : CellId → Form → Prop
  | x, .value v => store.Has x ∧ store.cell x = .value v
  | x, .deferred name => store.Has x ∧ store.cell x = .suspended (.lookup env name)
  | x, .binaryOn f form => ∃ y, (store.Has x ∧ store.cell x = .value (.func (.binaryOn f y))) ∧
      store.Formed env y form
  | x, .ternaryOn f form => ∃ y, (store.Has x ∧ store.cell x = .value (.func (.ternaryOn f y))) ∧
      store.Formed env y form
  | x, .ternaryOnTwo f first second => ∃ y z,
      (store.Has x ∧ store.cell x = .value (.func (.ternaryOnTwo f y z))) ∧
        store.Formed env y first ∧ store.Formed env z second

/-- The form of a cell stays while cells stay. -/
theorem Store.Formed.mono (formed : store.Formed env x form)
    (kept : ∀ {y}, store.Has y → later.Has y ∧ later.cell y = store.cell y) :
    later.Formed env x form := by
  have still : ∀ {y c}, store.Has y ∧ store.cell y = c → later.Has y ∧ later.cell y = c := by
    rintro y c ⟨there, holds⟩
    exact ⟨(kept there).1, (kept there).2.trans holds⟩
  induction form generalizing x with
  | value v => exact still formed
  | deferred name => exact still formed
  | binaryOn f form ih =>
    obtain ⟨y, holds, argument⟩ := formed
    exact ⟨y, still holds, ih argument⟩
  | ternaryOn f form ih =>
    obtain ⟨y, holds, argument⟩ := formed
    exact ⟨y, still holds, ih argument⟩
  | ternaryOnTwo f first second ihFirst ihSecond =>
    obtain ⟨y, z, holds, argument, argument'⟩ := formed
    exact ⟨y, z, still holds, ihFirst argument, ihSecond argument'⟩

theorem Store.Formed.builds (formed : store.Formed env x form) (builds : store.Builds later) :
    later.Formed env x form :=
  formed.mono fun there => ⟨builds.evolves.has there, builds.cell_eq there⟩

/-! ### Building in a form -/

/-- A function that takes more arguments is given one, and holds it. -/
inductive Form.Gives : Form → Form → Form → Prop
  | binary {f : Binary} {x : Form} : Gives (.value (.func (.binary f))) x (.binaryOn f x)
  | ternary {f : Ternary} {x : Form} : Gives (.value (.func (.ternary f))) x (.ternaryOn f x)
  | ternaryOn {f : Ternary} {x y : Form} : Gives (.ternaryOn f x) y (.ternaryOnTwo f x y)

/-- **The form of an expression** in which one name is not bound and all others are those of
builtins. -/
inductive Expression.Forms (unbound : String) : Expression → Form → Prop
  | number {numeral : Numeral} : numeral.readable = true →
      Forms unbound (.number numeral) (.value (.num numeral.toInt))
  | builtin {name : String} {v : Value} : (name, v) ∈ Builtins.all →
      Forms unbound (.symbol name) (.value v)
  | deferred : Forms unbound (.symbol unbound) (.deferred unbound)
  | ap {operator operand : Expression} {first second form : Form} :
      Forms unbound operator first → Forms unbound operand second → first.Gives second form →
      Forms unbound (.ap operator operand) form

/-- A cell is added that holds a function with one more argument. -/
theorem apply_gives {f : CellId} {first second : Form} (depth : Nat) (gives : first.Gives second form)
    (operator : store.Formed env f first) (argument : store.Formed env x second) :
    (apply (depth + 1) f x).Ensures store
      (fun y later => store.Builds later ∧ later.Formed env y form) fun _ _ => False := by
  have added : ∀ c, (store.alloc c).2.Has (store.alloc c).1 ∧
      (store.alloc c).2.cell (store.alloc c).1 = c :=
    fun c => ⟨Store.has_alloc store c, Store.cell_alloc_self store c⟩
  have kept : ∀ {y form} c, store.Formed env y form → (store.alloc c).2.Formed env y form :=
    fun c formed => formed.builds (.alloc c .refl)
  cases gives with
  | binary =>
    rw [Eval.ensures_congr (apply_of_value operator.2 depth x)]
    exact ⟨.alloc _ .refl, x, added _, kept _ argument⟩
  | ternary =>
    rw [Eval.ensures_congr (apply_of_value operator.2 depth x)]
    exact ⟨.alloc _ .refl, x, added _, kept _ argument⟩
  | ternaryOn =>
    obtain ⟨y, holds, held⟩ := operator
    rw [Eval.ensures_congr (apply_of_value holds.2 depth x)]
    exact ⟨.alloc _ .refl, y, x, added _, kept _ held, kept _ argument⟩

/-- **An expression is built in its form**, and cells are added only. -/
theorem build_formed {e : Expression} (depth : Nat) (forms : e.Forms name form)
    (builtins : store.HasBuiltins env) (missing : (store.table env).lookup name = none) :
    (e.build (depth + 1) env).Ensures store
      (fun x later => store.Builds later ∧ later.Formed env x form) fun _ _ => False := by
  induction forms generalizing store with
  | @number numeral readable =>
    have read : numeral.read = .ok numeral.toInt := if_pos readable
    rw [Expression.build, read]
    exact ⟨.alloc _ .refl, Store.has_alloc store _, Store.cell_alloc_self store _⟩
  | builtin member =>
    obtain ⟨x, found, there, holds⟩ := builtins (_, _) member
    rw [Expression.build, Eval.ensures_congr (reference_of_bound found)]
    exact ⟨.refl, there, holds⟩
  | deferred =>
    rw [Expression.build, Eval.ensures_congr (reference_of_unbound missing)]
    exact ⟨.alloc _ .refl, Store.has_alloc store _, Store.cell_alloc_self store _⟩
  | ap _ _ gives ihOperator ihOperand =>
    refine (ihOperator builtins missing).bind ?_ fun _ _ never => never
    rintro f store₁ ⟨builds₁, operator⟩
    have still : (store₁.table env).lookup name = none := by
      rwa [Store.table_congr builds₁.tables_eq]
    refine (ihOperand (builtins.builds builds₁) still).bind ?_ fun _ _ never => never
    rintro x store₂ ⟨builds₂, argument⟩
    refine (apply_gives depth gives (operator.builds builds₂) argument).mono ?_ fun _ _ never => never
    rintro y store₃ ⟨builds₃, formed⟩
    exact ⟨(builds₁.trans builds₂).trans builds₃, formed⟩

/-- The symbols of an expression that has a form are the name that is not bound and builtins. -/
theorem Expression.Forms.symbol_mem {e : Expression} {word : String} (forms : e.Forms name form)
    (member : Token.symbol word ∈ e.listing) :
    word = name ∨ word ∈ Builtins.all.map Prod.fst := by
  induction forms with
  | number _ => simp [Expression.listing] at member
  | @builtin builtin v among =>
    obtain rfl : word = builtin := by simpa [Expression.listing] using member
    exact Or.inr (List.mem_map_of_mem among)
  | deferred => exact Or.inl (by simpa [Expression.listing] using member)
  | ap _ _ _ ihOperator ihOperand =>
    simp only [Expression.listing, List.mem_cons, reduceCtorEq, List.mem_append, false_or] at member
    exact member.elim ihOperator ihOperand

/-! ### The form of a recurrence -/

theorem Start.forms {start : Start} (readable : start.readable = true) :
    start.expression.Forms name (.value start.value) := by
  cases start with
  | number numeral => exact .number readable
  | nil => exact .builtin (by decide)

/-- **The expression of a recurrence has its form.** -/
theorem Recurrence.forms {recurrence : Recurrence} (readable : recurrence.start.readable = true) :
    (recurrence.expression name).Forms name (recurrence.form name) := by
  have ternary : ∀ {word f operand operand' first second}, (word, .func (.ternary f)) ∈ Builtins.all →
      Expression.Forms name operand first → Expression.Forms name operand' second →
      Expression.Forms name (.ap (.ap (.symbol word) operand) operand') (.ternaryOnTwo f first second) :=
    fun member first second => .ap (.ap (.builtin member) first .ternary) second .ternaryOn
  have share : ("s", Value.func (.ternary .share)) ∈ Builtins.all := by decide
  have swap : ("c", Value.func (.ternary .swap)) ∈ Builtins.all := by decide
  have compose : ("b", Value.func (.ternary .compose)) ∈ Builtins.all := by decide
  have equals : ("eq", Value.func (.binary (.binop .eq))) ∈ Builtins.all := by decide
  have decrease : ("dec", Value.func (.unary (.monop .dec))) ∈ Builtins.all := by decide
  have zero : (⟨false, ['0']⟩ : Numeral).readable = true := by decide
  exact ternary share
    (ternary swap (.ap (.builtin equals) (.number zero) .binary) (Start.forms readable))
    (ternary share (.builtin recurrence.step_mem_builtins)
      (ternary compose .deferred (.builtin decrease)))

end ByNeed
