/-
**Environments.**

An environment is a table of definitions in the store. A name is bound at most once, bindings keep
the order in which they were made, and several handles on one table see the same bindings. A name
may be mentioned before it is bound: such a reference looks the name up again when it is forced.
-/

import ByNeed.Store

namespace ByNeed.Environment

/-- A new environment without bindings. -/
def create : Eval TableId :=
  modifyGet fun store => store.allocTable

/-- The bindings of an environment, in the order in which they were made. -/
def bindings (env : TableId) : Eval Table := do
  return (← get).table env

/-- The cell that a name is bound to. -/
def lookup (env : TableId) (name : String) : Eval (Option CellId) := do
  return (← bindings env).lookup name

/-- Bind a name that is not bound yet. -/
def define (env : TableId) (name : String) (x : CellId) : Eval Unit := do
  match ← lookup env name with
  | some _ => Eval.fault (.duplicateSymbol name)
  | none => modify fun store => store.bindName env name x

/-- Bind names one after the other, up to the first that is bound already. -/
def defineAll (env : TableId) (items : List (String × CellId)) : Eval Unit :=
  items.forM fun (name, x) => define env name x

/-- The cell for a mention of a name: the cell it is bound to, or one that looks it up when it is
forced. -/
def reference (env : TableId) (name : String) : Eval CellId := do
  match ← lookup env name with
  | some x => pure x
  | none => Eval.suspend (.lookup env name)

end ByNeed.Environment
