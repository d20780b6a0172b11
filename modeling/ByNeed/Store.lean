/-
**The store.**

Every expression is a cell of the store. A cell holds either a value or a suspension, the work that
will produce its value. Cells are only ever added, and the one change a cell can see is that its
suspension is replaced by the value it produced; both kinds of change are kept on record. Next to the
cells stand the tables of definitions, in which a name is bound once, and the number of suspensions
that were replaced.

A computation on the store (`Eval`) keeps what it did to the store also when it fails.

* `Store.cell_alloc`: a new cell is read back, and the others are unchanged;
* `Store.cell_commit`: the same of a cell that is given its value;
* `Store.table_bindName`: the same of a table that is given a binding.
-/

import ByNeed.Fault

namespace ByNeed

/-! ### Cells -/

/-- The work that produces a value. -/
inductive Suspension
  /-- The value of the first cell applied to the second. -/
  | apply (f x : CellId)
  /-- The value of a half of a pair. -/
  | half (side : Half) (x : CellId)
  /-- The value of what a name is bound to, once it is. -/
  | lookup (table : TableId) (name : String)
  /-- The value of a cell, leaving a label in the trace. -/
  | observe (label : String) (x : CellId)
  | monop (op : Monop) (x : CellId)
  | binop (op : Binop) (x y : CellId)
  | isNil (x : CellId)
  /-- The value of `a c (b c)`. -/
  | share (a b c : CellId)
deriving DecidableEq

/-- A cell holds a value or the work that produces it. -/
inductive Cell
  | value (v : Value)
  | suspended (s : Suspension)
deriving DecidableEq

/-- The bindings of names to cells, in the order in which they were made. -/
abbrev Table := List (String × CellId)

/-- A change to the cells. -/
inductive Change
  /-- A cell was added that holds the given content. -/
  | added (x : CellId) (c : Cell)
  /-- The suspension of a cell was replaced by a value. -/
  | replaced (x : CellId) (v : Value)
deriving DecidableEq

/-! ### Stores -/

/-- The cells, the tables of definitions, the number of suspensions replaced by values, the labels
observed, the latest first, and the changes to the cells, the latest first, which are kept on record
and decide nothing. -/
structure Store where
  cells : Array Cell
  tables : Array Table
  forced : Nat
  trace : List String
  changes : List Change

namespace Store

/-- A store without cells. -/
def empty : Store :=
  ⟨#[], #[], 0, [], []⟩

/-- What a cell holds; a place with no cell reads as the empty list. -/
def cell (store : Store) (x : CellId) : Cell :=
  store.cells.getD x.index (.value .nil)

/-- The bindings of a table; a place with no table has none. -/
def table (store : Store) (t : TableId) : Table :=
  store.tables.getD t.index []

/-- Add a cell. -/
def alloc (store : Store) (c : Cell) : CellId × Store :=
  (⟨store.cells.size⟩,
    { store with
      cells := store.cells.push c
      changes := .added ⟨store.cells.size⟩ c :: store.changes })

/-- Replace a suspension by the value it produced, and count it. -/
def commit (store : Store) (x : CellId) (v : Value) : Store :=
  { store with
    cells := store.cells.setIfInBounds x.index (.value v)
    forced := store.forced + 1
    changes := .replaced x v :: store.changes }

/-- Add a table without bindings. -/
def allocTable (store : Store) : TableId × Store :=
  (⟨store.tables.size⟩, { store with tables := store.tables.push [] })

/-- Add a binding at the end of a table. -/
def bindName (store : Store) (t : TableId) (name : String) (x : CellId) : Store :=
  { store with tables := store.tables.modify t.index (· ++ [(name, x)]) }

/-- A cell is there. -/
def Has (store : Store) (x : CellId) : Prop :=
  x.index < store.cells.size

theorem cell_alloc (store : Store) (c : Cell) (x : CellId) :
    (store.alloc c).2.cell x = if x = (store.alloc c).1 then c else store.cell x := by
  rcases x with ⟨i⟩
  simp only [alloc, cell, Array.getD_eq_getD_getElem?, Array.getElem?_push, CellId.mk.injEq]
  split <;> rfl

theorem cell_commit {store : Store} {x : CellId} (there : store.Has x) (v : Value) (y : CellId) :
    (store.commit x v).cell y = if y = x then .value v else store.cell y := by
  rcases x with ⟨i⟩
  rcases y with ⟨j⟩
  have inside : i < store.cells.size := there
  by_cases same : j = i
  · subst same
    simp [commit, cell, inside]
  · simp [commit, cell, same, Ne.symm same]

theorem table_bindName {store : Store} {t : TableId} (inside : t.index < store.tables.size)
    (name : String) (x : CellId) (t' : TableId) :
    (store.bindName t name x).table t' =
      if t' = t then store.table t ++ [(name, x)] else store.table t' := by
  rcases t with ⟨i⟩
  rcases t' with ⟨j⟩
  have there : i < store.tables.size := inside
  by_cases same : j = i
  · subst same
    simp [bindName, table, there, Array.getElem_modify]
  · simp [bindName, table, same, Ne.symm same, Array.getElem?_modify]

end Store

/-! ### Computations on the store -/

/-- Computations that read and change the store, and keep the change when they fail. -/
abbrev Eval := EStateM Failure Store

namespace Eval

/-- End with a fault. -/
def fault {α : Type} (reason : Fault) : Eval α :=
  throw (.fault reason)

/-- Answer or fail as it has been found out. -/
def ofExcept {α : Type} : Except Failure α → Eval α
  | .ok a => pure a
  | .error failure => throw failure

/-- End with a fault that shows a number, for which the number must be within the limit. -/
def faultShowing {α : Type} (reason : Int → Fault) (n : Int) : Eval α :=
  if writable n then fault (reason n) else throw .oversizeNumber

/-- What a cell holds. -/
def cell (x : CellId) : Eval Cell := do
  return (← get).cell x

/-- Add a cell. -/
def alloc (c : Cell) : Eval CellId :=
  modifyGet fun store => store.alloc c

/-- Add a cell that holds a value. -/
def value (v : Value) : Eval CellId :=
  alloc (.value v)

/-- Add a cell that holds a suspension. -/
def suspend (s : Suspension) : Eval CellId :=
  alloc (.suspended s)

/-- Replace a suspension by the value it produced. -/
def commit (x : CellId) (v : Value) : Eval Unit :=
  modify fun store => store.commit x v

/-- Leave a label in the trace. -/
def observe (label : String) : Eval Unit :=
  modify fun store => { store with trace := label :: store.trace }

/-- The outcome of a computation, which itself does not fail. -/
def outcome {α : Type} (computation : Eval α) : Eval (Except Failure α) := fun store =>
  match computation store with
  | .ok a later => .ok (.ok a) later
  | .error failure later => .ok (.error failure) later

end Eval

end ByNeed
