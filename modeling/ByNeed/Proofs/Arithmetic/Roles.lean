/-
**The roles of cells.**

While a program of formulas is loaded and evaluated, its cells come to integers, or to functions that
take integers one by one. The role of a cell says to which, before it is forced and whatever it holds
by then; with the role goes a number that bounds how deeply forcing the cell nests. Cells that belong
to other expressions have no role, and are not spoken of.

* `Role`, `Role.Fails`: what a cell comes to, and when forcing it demands a quotient by zero;
* `Assigns`: **roles are assigned to the cells of a store**, and each cell holds what its role says;
* `apply_plays`: applying a function to an integer answers a cell with the role of the result;
* `force_plays`: **forcing a cell finds what its role says**, or demands a quotient by zero, or lacks
  depth; and forcing any other cell leaves the roles as they are (`force_furthers`).
-/

import ByNeed.Proofs.Arithmetic.Formula
import ByNeed.Proofs.Bindings
import ByNeed.Proofs.Bindings.Kept
import ByNeed.Proofs.Labels

namespace ByNeed

/-! ### Roles -/

/-- **What a cell comes to**: an integer, of which there is none if a quotient by zero is demanded, or
a function of an integer. -/
inductive Role
  | integer (value : Option Int)
  | function (answers : Option Int → Role)

namespace Role

/-- A quotient by zero is demanded before anything is found, or whatever the arguments are. -/
inductive Fails : Role → Prop
  | integer : Fails (.integer none)
  | function {answers : Option Int → Role} : (∀ a, Fails (answers a)) → Fails (.function answers)

/-- Arithmetic on one integer. -/
def monop (op : Monop) : Role :=
  .function fun a => .integer (a.map op.apply)

/-- A truth value picks one of two integers. -/
def choice (truth : Option Bool) : Role :=
  .function fun a => .function fun b => .integer (truth.bind fun first => if first then a else b)

/-- The result of an operation on two integers. -/
def result (op : Binop) (a b : Option Int) : Role :=
  match op with
  | .add => .integer (do Operation.add.compute (← a) (← b))
  | .mul => .integer (do Operation.mul.compute (← a) (← b))
  | .div => .integer (do Operation.div.compute (← a) (← b))
  | .eq => choice (do return Comparison.eq.holds (← a) (← b))
  | .lt => choice (do return Comparison.lt.holds (← a) (← b))

/-- Arithmetic and comparison on two integers. -/
def binop (op : Binop) : Role :=
  .function fun a => .function (result op a)

theorem choice_fails : (choice none).Fails :=
  .function fun _ => .function fun _ => .integer

/-- An operation without an operand fails. -/
theorem result_fails {a b : Option Int} (op : Binop) (missing : a = none ∨ b = none) :
    (result op a b).Fails := by
  cases a with
  | none =>
    cases op with
    | add | mul | div => exact .integer
    | eq | lt => exact choice_fails
  | some m =>
    obtain rfl : b = none := by simpa using missing
    cases op with
    | add | mul | div => exact .integer
    | eq | lt => exact choice_fails

end Role

/-- The roles of the cells, in the order of the cells, each with a bound on the depth it takes. -/
abbrev Roles := Labels (Role × Nat)

namespace Roles

variable {roles later : Roles} {x : CellId} {role : Role} {limit limit' : Nat}

/-- **A cell plays a role**, and takes no more depth than a limit. -/
def Plays (roles : Roles) (x : CellId) (role : Role) (limit : Nat) : Prop :=
  ∃ cost ≤ limit, roles.of x = some (role, cost)

theorem Plays.mono (plays : roles.Plays x role limit) (grown : roles <+: later)
    (le : limit ≤ limit') : later.Plays x role limit' := by
  obtain ⟨cost, within, played⟩ := plays
  exact ⟨cost, Nat.le_trans within le, Labels.of_mono played grown⟩

end Roles

/-- The names that stand for integers: the table in which they are looked up, what they mean, and how
much depth they take. -/
structure Scope where
  env : TableId
  names : List String
  meaning : String → Option Int
  level : String → Nat

/-- **A value is what a role says**; the cells that it holds take no more depth than a limit. -/
inductive ValueAs (roles : Roles) : Value → Role → Nat → Prop
  | num {n : Int} {limit : Nat} : ValueAs roles (.num n) (.integer (some n)) limit
  | monop {op : Monop} {limit : Nat} :
      ValueAs roles (.func (.unary (.monop op))) (Role.monop op) limit
  | binop {op : Binop} {limit : Nat} :
      ValueAs roles (.func (.binary (.binop op))) (Role.binop op) limit
  | binopOn {op : Binop} {x : CellId} {a : Option Int} {limit : Nat} :
      roles.Plays x (.integer a) limit →
      ValueAs roles (.func (.binaryOn (.binop op) x)) (.function (Role.result op a)) limit
  | choice {truth : Bool} {limit : Nat} :
      ValueAs roles (boolean truth) (Role.choice (some truth)) limit
  | first {word : Option String} {x : CellId} {a : Option Int} {limit : Nat} :
      roles.Plays x (.integer a) limit →
      ValueAs roles (.func (.binaryOn (.first word) x)) (.function fun _ => .integer a) limit
  | second {word : Option String} {x : CellId} {limit : Nat} :
      ValueAs roles (.func (.binaryOn (.second word) x)) (.function .integer) limit

/-- **A suspension comes to what a role says**, and takes no more depth than a limit. -/
inductive SuspendedAs (scope : Scope) (roles : Roles) : Suspension → Role → Nat → Prop
  | apply {f x : CellId} {answers : Option Int → Role} {a : Option Int} {limit cost : Nat} :
      roles.Plays f (.function answers) limit → roles.Plays x (.integer a) limit →
      limit + 2 ≤ cost → SuspendedAs scope roles (.apply f x) (answers a) cost
  | monop {op : Monop} {x : CellId} {a : Option Int} {limit cost : Nat} :
      roles.Plays x (.integer a) limit → limit < cost →
      SuspendedAs scope roles (.monop op x) (.integer (a.map op.apply)) cost
  | binop {op : Binop} {x y : CellId} {a b : Option Int} {limit cost : Nat} :
      roles.Plays x (.integer a) limit → roles.Plays y (.integer b) limit → limit < cost →
      SuspendedAs scope roles (.binop op x y) (Role.result op a b) cost
  | lookup {name : String} {cost : Nat} : name ∈ scope.names → scope.level name < cost →
      SuspendedAs scope roles (.lookup scope.env name) (.integer (scope.meaning name)) cost

/-- What a cell holds comes to what a role says. -/
def Cell.ConformsTo (scope : Scope) (roles : Roles) (role : Role) (cost : Nat) : Cell → Prop
  | .value v => ValueAs roles v role cost
  | .suspended s => SuspendedAs scope roles s role cost

section Mono

variable {scope : Scope} {roles later : Roles} {role : Role} {v : Value} {c : Cell}
  {limit limit' cost : Nat}

theorem ValueAs.mono (value : ValueAs roles v role limit) (grown : roles <+: later)
    (le : limit ≤ limit') : ValueAs later v role limit' := by
  cases value with
  | num => exact .num
  | monop => exact .monop
  | binop => exact .binop
  | binopOn plays => exact .binopOn (plays.mono grown le)
  | choice => exact .choice
  | first plays => exact .first (plays.mono grown le)
  | second => exact .second

theorem Cell.ConformsTo.mono (conforms : c.ConformsTo scope roles role cost)
    (grown : roles <+: later) : c.ConformsTo scope later role cost := by
  cases c with
  | value v => exact ValueAs.mono conforms grown (Nat.le_refl _)
  | suspended s =>
    have same : ∀ {x role limit}, roles.Plays x role limit → later.Plays x role limit :=
      fun plays => plays.mono grown (Nat.le_refl _)
    cases conforms with
    | apply operator argument le => exact SuspendedAs.apply (same operator) (same argument) le
    | monop plays lt => exact SuspendedAs.monop (same plays) lt
    | binop first second lt => exact SuspendedAs.binop (same first) (same second) lt
    | lookup member lt => exact SuspendedAs.lookup member lt

end Mono

/-! ### Assignments -/

/-- **Roles are assigned to the cells of a store**: what a cell holds conforms to its role, and so do
the cells that the names and the primitives of arithmetic are bound to. -/
structure Assigns (scope : Scope) (roles : Roles) (store : Store) : Prop where
  length : roles.length = store.cells.size
  cells : ∀ x role cost, roles.of x = some (role, cost) →
    (store.cell x).ConformsTo scope roles role cost
  bound : ∀ name ∈ scope.names, ∀ x, (store.table scope.env).lookup name = some x →
    roles.Plays x (.integer (scope.meaning name)) (scope.level name)
  monops : ∀ op : Monop, ∃ x, (store.table scope.env).lookup op.name = some x ∧
    roles.Plays x (Role.monop op) 0
  binops : ∀ op : Binop, ∃ x, (store.table scope.env).lookup op.name = some x ∧
    roles.Plays x (Role.binop op) 0

/-- **A store is taken further**, with roles for the cells that were added, and the same bindings. -/
structure Further (scope : Scope) (roles : Roles) (store : Store) (roles' : Roles) (later : Store) :
    Prop where
  grown : roles <+: roles'
  assigns : Assigns scope roles' later
  tables : later.tables = store.tables

variable {scope : Scope} {roles roles' roles'' : Roles} {store later last : Store} {x f : CellId}
  {role : Role} {v : Value} {limit depth : Nat}

theorem Further.refl (assigns : Assigns scope roles store) : Further scope roles store roles store :=
  ⟨List.prefix_refl roles, assigns, rfl⟩

theorem Further.trans (first : Further scope roles store roles' later)
    (second : Further scope roles' later roles'' last) : Further scope roles store roles'' last :=
  ⟨first.grown.trans second.grown, second.assigns, second.tables.trans first.tables⟩

namespace Assigns

theorem has_iff (assigns : Assigns scope roles store) : store.Has x ↔ x.index < roles.length := by
  rw [assigns.length]
  rfl

/-- **A cell is added**, with a role that it conforms to or without one. -/
theorem alloc {c : Cell} {part : Option (Role × Nat)} (assigns : Assigns scope roles store)
    (conforms : ∀ role cost, part = some (role, cost) → c.ConformsTo scope roles role cost) :
    Further scope roles store (roles ++ [part]) (store.alloc c).2 := by
  have grown : roles <+: roles ++ [part] := List.prefix_append roles [part]
  refine ⟨grown, ⟨by simp [Store.alloc, assigns.length], ?_, ?_, ?_, ?_⟩, rfl⟩
  · intro x role cost played
    rcases Labels.of_append_cases assigns.length c played with ⟨there, played⟩ | ⟨rfl, same⟩
    · rw [Store.cell_alloc_of_has there]
      exact (assigns.cells x role cost played).mono grown
    · rw [Store.cell_alloc_self]
      exact (conforms role cost same).mono grown
  · exact fun name member x found =>
      (assigns.bound name member x found).mono grown (Nat.le_refl _)
  · intro op
    obtain ⟨x, found, plays⟩ := assigns.monops op
    exact ⟨x, found, plays.mono grown (Nat.le_refl _)⟩
  · intro op
    obtain ⟨x, found, plays⟩ := assigns.binops op
    exact ⟨x, found, plays.mono grown (Nat.le_refl _)⟩

/-- **A cell is added that plays a role.** -/
theorem exists_alloc {c : Cell} {cost : Nat} (assigns : Assigns scope roles store)
    (conforms : c.ConformsTo scope roles role cost) :
    ∃ roles', Further scope roles store roles' (store.alloc c).2 ∧
      roles'.Plays (store.alloc c).1 role cost := by
  refine ⟨roles ++ [some (role, cost)], assigns.alloc fun role' cost' same => ?_, cost,
    Nat.le_refl _, Labels.of_alloc assigns.length c _⟩
  cases same
  exact conforms

/-- **A cell is given a value** that conforms to its role, if it has one. -/
theorem commit (assigns : Assigns scope roles store) (there : store.Has x)
    (conforms : ∀ role cost, roles.of x = some (role, cost) → ValueAs roles v role cost) :
    Further scope roles store roles (store.commit x v) := by
  refine ⟨List.prefix_refl roles, ⟨?_, ?_, assigns.bound, assigns.monops, assigns.binops⟩, rfl⟩
  · simp [Store.commit, assigns.length]
  · intro y role cost played
    rw [Store.cell_commit there]
    by_cases same : y = x
    · rw [if_pos same]
      exact conforms role cost (same ▸ played)
    · rw [if_neg same]
      exact assigns.cells y role cost played

end Assigns

/-! ### Applying -/

/-- **A function is given an integer**: the cell that it answers has the role of the result. -/
theorem applyWith_plays {apply : CellId → CellId → Eval CellId} {answers : Option Int → Role}
    {a : Option Int} (assigns : Assigns scope roles store)
    (operator : ValueAs roles v (.function answers) limit)
    (argument : roles.Plays x (.integer a) limit) :
    (v.applyWith apply x).Ensures store
      (fun y later => ∃ roles', Further scope roles store roles' later ∧
        roles'.Plays y (answers a) (limit + 1)) fun _ _ => False := by
  have more : ∀ {y role}, roles.Plays y role limit → roles.Plays y role (limit + 1) :=
    fun plays => plays.mono (List.prefix_refl roles) (Nat.le_succ limit)
  cases operator with
  | monop => exact assigns.exists_alloc (.monop argument (Nat.lt_succ_self limit))
  | binop => exact assigns.exists_alloc (.binopOn (more argument))
  | binopOn first => exact assigns.exists_alloc (.binop first argument (Nat.lt_succ_self limit))
  | @choice truth =>
    cases truth with
    | true => exact assigns.exists_alloc (.first (more argument))
    | false => exact assigns.exists_alloc .second
  | first held => exact ⟨roles, .refl assigns, more held⟩
  | second => exact ⟨roles, .refl assigns, more argument⟩

/-- **A cell is applied to an integer**: the cell that it answers has the role of the result. -/
theorem apply_plays {answers : Option Int → Role} {a : Option Int} (depth : Nat)
    (assigns : Assigns scope roles store) (operator : roles.Plays f (.function answers) limit)
    (argument : roles.Plays x (.integer a) limit) :
    (apply (depth + 1) f x).Ensures store
      (fun y later => ∃ roles', Further scope roles store roles' later ∧
        roles'.Plays y (answers a) (limit + 2)) fun _ _ => False := by
  obtain ⟨cost, within, played⟩ := operator
  have conforms := assigns.cells f _ _ played
  cases held : store.cell f with
  | suspended s =>
    rw [Eval.ensures_congr (apply_of_suspended held (depth + 1) x)]
    exact assigns.exists_alloc (.apply ⟨cost, within, played⟩ argument (Nat.le_refl _))
  | value v =>
    rw [held] at conforms
    rw [Eval.ensures_congr (apply_of_value held depth x)]
    refine (applyWith_plays assigns (ValueAs.mono conforms (List.prefix_refl _) within)
      argument).mono ?_ fun _ _ never => never
    rintro y later ⟨roles', further, plays⟩
    exact ⟨roles', further, plays.mono (List.prefix_refl _) (Nat.le_succ _)⟩

/-! ### Forcing -/

/-- All names are bound. -/
def Ready (scope : Scope) (store : Store) : Prop :=
  ∀ name ∈ scope.names, ∃ x, (store.table scope.env).lookup name = some x

theorem Ready.of_tables (ready : Ready scope store) (same : later.tables = store.tables) :
    Ready scope later := by
  intro name member
  rw [Store.table_congr same]
  exact ready name member

/-- **A failure is due to a role**, which demands a quotient by zero, or to a want of depth. -/
def Excused (role : Role) (depth cost : Nat) (failure : Failure) : Prop :=
  (failure = .fault .divisionByZero ∧ role.Fails) ∨ (failure = .depthExhausted ∧ depth ≤ cost)

/-- A failure inside of a run is one of the run. -/
theorem Excused.outside {role' : Role} {cost : Nat} {failure : Failure}
    (excused : Excused role depth limit failure) (fails : role.Fails → role'.Fails)
    (lt : limit < cost) : Excused role' (depth + 1) cost failure := by
  rcases excused with ⟨same, inside⟩ | ⟨same, le⟩
  · exact Or.inl ⟨same, fails inside⟩
  · exact Or.inr ⟨same, by omega⟩

/-- **Forcing finds what the role of a cell says**, or fails because of it or for want of depth. -/
def ForcesAs (scope : Scope) (depth : Nat) (force : CellId → Eval Value) : Prop :=
  ∀ {roles : Roles} {store : Store} {x : CellId} {role : Role} {limit : Nat},
    Assigns scope roles store → Ready scope store → roles.Plays x role limit →
    (force x).Ensures store
      (fun v later => ∃ roles', Further scope roles store roles' later ∧ ValueAs roles' v role limit)
      fun failure later => ∃ roles', Further scope roles store roles' later ∧
        Excused role depth limit failure

/-- A value that is an integer. -/
theorem ValueAs.integer {a : Option Int} (value : ValueAs roles v (.integer a) limit) :
    ∃ n, v = .num n ∧ a = some n := by
  cases value with
  | num => exact ⟨_, rfl, rfl⟩

/-- What an operation answers on two integers is what its role says. -/
theorem binop_plays (op : Binop) (m n : Int) (roles : Roles) (store : Store) (limit depth : Nat) :
    (Eval.ofExcept ((op.apply m n).mapError .fault)).Ensures store
      (fun v later => later = store ∧ ValueAs roles v (Role.result op (some m) (some n)) limit)
      fun failure later => later = store ∧
        Excused (Role.result op (some m) (some n)) depth limit failure := by
  cases op with
  | add => exact ⟨rfl, .num⟩
  | mul => exact ⟨rfl, .num⟩
  | eq => exact ⟨rfl, .choice⟩
  | lt => exact ⟨rfl, .choice⟩
  | div =>
    by_cases zero : n = 0
    · subst zero
      exact ⟨rfl, Or.inl ⟨rfl, .integer⟩⟩
    · have found : Binop.div.apply m n = .ok (.num (m.tdiv n)) := by
        simp [Binop.apply, quotient, zero, Except.map]
      have same : Role.result .div (some m) (some n) = .integer (some (m.tdiv n)) :=
        congrArg Role.integer (if_neg zero)
      rw [found, same]
      exact ⟨rfl, .num⟩

/-- **Running a suspension finds what its role says**, if forcing does. -/
theorem run_plays {force : CellId → Eval Value} {apply : CellId → CellId → Eval CellId}
    {s : Suspension} {cost : Nat} (forces : ForcesAs scope depth force)
    (assigns : Assigns scope roles store) (ready : Ready scope store)
    (suspended : SuspendedAs scope roles s role cost) :
    (s.run force apply).Ensures store
      (fun v later => ∃ roles', Further scope roles store roles' later ∧ ValueAs roles' v role cost)
      fun failure later => ∃ roles', Further scope roles store roles' later ∧
        Excused role (depth + 1) cost failure := by
  cases suspended with
  | @apply f x answers a limit _ operator argument le =>
    show (force f >>= fun v => v.applyWith apply x >>= force).Ensures store _ _
    refine (forces assigns ready operator).bind ?_ ?_
    · rintro v store₁ ⟨roles₁, further₁, value⟩
      refine (applyWith_plays further₁.assigns value
        (argument.mono further₁.grown (Nat.le_refl _))).bind ?_ fun _ _ never => never.elim
      rintro y store₂ ⟨roles₂, further₂, plays⟩
      have further := further₁.trans further₂
      refine (forces further₂.assigns (ready.of_tables further.tables) plays).mono ?_ ?_
      · rintro w store₃ ⟨roles₃, further₃, value⟩
        exact ⟨roles₃, further.trans further₃, value.mono (List.prefix_refl _) (by omega)⟩
      · rintro failure store₃ ⟨roles₃, further₃, excused⟩
        exact ⟨roles₃, further.trans further₃, excused.outside id (by omega)⟩
    · rintro failure store₁ ⟨roles₁, further₁, excused⟩
      refine ⟨roles₁, further₁, excused.outside (fun fails => ?_) (by omega)⟩
      cases fails with
      | function each => exact each a
  | @monop op x a limit _ plays lt =>
    show (force x >>= fun v => v.toInt op.name >>= fun n =>
      pure (Value.num (op.apply n))).Ensures store _ _
    refine (forces assigns ready plays).bind ?_ ?_
    · rintro v store₁ ⟨roles₁, further₁, value⟩
      obtain ⟨n, rfl, rfl⟩ := value.integer
      exact ⟨roles₁, further₁, .num⟩
    · rintro failure store₁ ⟨roles₁, further₁, excused⟩
      refine ⟨roles₁, further₁, excused.outside (fun fails => ?_) lt⟩
      cases fails
      exact .integer
  | @binop op x y a b limit _ first second lt =>
    show (force x >>= fun v => v.toInt op.name >>= fun m => force y >>= fun w =>
      w.toInt op.name >>= fun n => Eval.ofExcept ((op.apply m n).mapError .fault)).Ensures store _ _
    refine (forces assigns ready first).bind ?_ ?_
    · rintro v store₁ ⟨roles₁, further₁, value⟩
      obtain ⟨m, rfl, rfl⟩ := value.integer
      refine (forces further₁.assigns (ready.of_tables further₁.tables)
        (second.mono further₁.grown (Nat.le_refl _))).bind ?_ ?_
      · rintro w store₂ ⟨roles₂, further₂, value⟩
        obtain ⟨n, rfl, rfl⟩ := value.integer
        refine (binop_plays op m n roles₂ store₂ cost (depth + 1)).mono ?_ ?_
        · rintro w store₃ ⟨rfl, value⟩
          exact ⟨roles₂, further₁.trans further₂, value⟩
        · rintro failure store₃ ⟨rfl, excused⟩
          exact ⟨roles₂, further₁.trans further₂, excused⟩
      · rintro failure store₂ ⟨roles₂, further₂, excused⟩
        refine ⟨roles₂, further₁.trans further₂, excused.outside (fun fails => ?_) lt⟩
        cases fails
        exact Role.result_fails op (Or.inr rfl)
    · rintro failure store₁ ⟨roles₁, further₁, excused⟩
      refine ⟨roles₁, further₁, excused.outside (fun fails => ?_) lt⟩
      cases fails
      exact Role.result_fails op (Or.inl rfl)
  | @lookup name _ member lt =>
    obtain ⟨y, found⟩ := ready name member
    have run : Suspension.run force apply (.lookup scope.env name) store = force y store := by
      rw [run_lookup, found]
    rw [Eval.ensures_congr run]
    refine (forces assigns ready (assigns.bound name member y found)).mono ?_ ?_
    · rintro v store₁ ⟨roles₁, further₁, value⟩
      exact ⟨roles₁, further₁, value.mono (List.prefix_refl _) (Nat.le_of_lt lt)⟩
    · rintro failure store₁ ⟨roles₁, further₁, excused⟩
      exact ⟨roles₁, further₁, excused.outside id lt⟩

theorem forceCellWith_plays {run : Suspension → Eval Value} (assigns : Assigns scope roles store)
    (plays : roles.Plays x role limit)
    (runs : ∀ {s cost}, SuspendedAs scope roles s role cost → (run s).Ensures store
      (fun v later => ∃ roles', Further scope roles store roles' later ∧ ValueAs roles' v role cost)
      fun failure later => ∃ roles', Further scope roles store roles' later ∧
        Excused role depth cost failure) :
    (forceCellWith run x).Ensures store
      (fun v later => ∃ roles', Further scope roles store roles' later ∧ ValueAs roles' v role limit)
      fun failure later => ∃ roles', Further scope roles store roles' later ∧
        Excused role depth limit failure := by
  obtain ⟨cost, within, played⟩ := plays
  have inside := Labels.lt_length played
  have conforms := assigns.cells x _ _ played
  unfold forceCellWith
  rw [Eval.ensures_bind, Eval.ensures_cell]
  cases held : store.cell x with
  | value v =>
    rw [held] at conforms
    exact ⟨roles, .refl assigns, ValueAs.mono conforms (List.prefix_refl _) within⟩
  | suspended s =>
    rw [held] at conforms
    refine (runs conforms).bind ?_ ?_
    · rintro v store₁ ⟨roles₁, further₁, value⟩
      have same := Labels.of_isPrefix further₁.grown inside
      have there := further₁.assigns.has_iff.mpr (Nat.lt_of_lt_of_le inside further₁.grown.length_le)
      have committed : Further scope roles₁ store₁ roles₁ (store₁.commit x v) := by
        refine further₁.assigns.commit there fun role' cost' played' => ?_
        rw [same, played] at played'
        cases played'
        exact value
      exact ⟨roles₁, further₁.trans committed, value.mono (List.prefix_refl _) within⟩
    · rintro failure store₁ ⟨roles₁, further₁, fails | ⟨same, le⟩⟩
      · exact ⟨roles₁, further₁, Or.inl fails⟩
      · exact ⟨roles₁, further₁, Or.inr ⟨same, Nat.le_trans le within⟩⟩

/-- **Forcing finds what the role of a cell says.** -/
theorem force_plays (scope : Scope) (depth : Nat) : ForcesAs scope depth (force depth) := by
  induction depth with
  | zero =>
    intro roles store x role limit assigns ready plays
    exact forceCellWith_plays assigns plays fun _ =>
      ⟨roles, .refl assigns, Or.inr ⟨rfl, Nat.zero_le _⟩⟩
  | succ depth ih =>
    intro roles store x role limit assigns ready plays
    exact forceCellWith_plays assigns plays (run_plays ih assigns ready)

/-! ### Forcing other cells -/

/-- **Whatever the roles are, a store is taken further**, once all names are bound. -/
def Furthers (scope : Scope) (store later : Store) : Prop :=
  ∀ roles, Assigns scope roles store → Ready scope store →
    ∃ roles', Further scope roles store roles' later

instance : Std.Refl (Furthers scope) where
  refl _ roles assigns _ := ⟨roles, .refl assigns⟩

instance : Trans (Furthers scope) (Furthers scope) (Furthers scope) where
  trans first second roles assigns ready := by
    obtain ⟨roles', further⟩ := first roles assigns ready
    obtain ⟨roles'', further'⟩ := second roles' further.assigns (ready.of_tables further.tables)
    exact ⟨roles'', further.trans further'⟩

/-- Adding cells without roles and leaving labels takes a store further. -/
theorem furthers_allow (scope : Scope) : Allows (Furthers scope) where
  alloc _ _ roles assigns _ := ⟨roles ++ [none], assigns.alloc fun _ _ same => nomatch same⟩
  observe _ _ roles assigns _ :=
    ⟨roles, List.prefix_refl roles,
      ⟨assigns.length, assigns.cells, assigns.bound, assigns.monops, assigns.binops⟩, rfl⟩

/-- **Forcing any cell takes a store further.** -/
theorem force_furthers (scope : Scope) (depth : Nat) (x : CellId) :
    Respects (Furthers scope) (force depth x) := by
  refine force_respects (furthers_allow scope) ?_ depth x
  intro depth x s v store later held ran furthers roles assigns ready
  cases played : roles.of x with
  | some part =>
    have forced := force_of_run held ran
    obtain ⟨roles', further, -⟩ :=
      (force_plays scope (depth + 1) assigns ready ⟨part.2, Nat.le_refl _, played⟩).ok forced
    exact ⟨roles', further⟩
  | none =>
    -- A cell without a role may be given any value.
    obtain ⟨roles', further⟩ := furthers roles assigns ready
    have inside := assigns.has_iff.mp (Store.has_of_suspended held)
    have there := further.assigns.has_iff.mpr (Nat.lt_of_lt_of_le inside further.grown.length_le)
    refine ⟨roles', further.trans (further.assigns.commit there fun role cost played' => ?_)⟩
    rw [Labels.of_isPrefix further.grown inside, played] at played'
    cases played'

end ByNeed
