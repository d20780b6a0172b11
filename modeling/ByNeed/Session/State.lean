/-
**The state of a session.**

A session keeps a store and names for what is in it: environments, evaluators, cells, trees and
streams of tokens, each kind with names of its own. Evaluators differ only in their counts of forced
cells, so an evaluator is its count.

* `onStore`: computes on the store of the session;
* `forcing`: the same with the count of an evaluator;
* `describe`: what a reply says about a cell.
-/

import ByNeed.Event
import ByNeed.Session.Command
import ByNeed.Store
import ByNeed.TokenStream

namespace ByNeed

/-- Things by name; of two of one name the first counts. -/
abbrev Registry (α : Type) := List (String × α)

/-- Give a thing a name. -/
def Registry.set {α : Type} (registry : Registry α) (name : String) (a : α) : Registry α :=
  (name, a) :: registry

/-- A store with names for what is in it, and the events so far, the latest first. -/
structure Session where
  store : Store
  environments : Registry TableId
  evaluators : Registry Nat
  cells : Registry CellId
  trees : Registry Tree
  streams : Registry TokenStream
  events : List Event

namespace Session

/-- Computations in a session, which keep what they did when they are refused. -/
abbrev Work := EStateM Refusal Session

/-! ### Registers -/

/-- The thing of a name. -/
def find {α : Type} (registry : Registry α) (name : String) : Work α :=
  match registry.lookup name with
  | some a => pure a
  | none => throw (.unset name)

/-- The environment of a name. -/
def environment (name : String) : Work TableId := do
  find (← get).environments name

/-- The count of the evaluator of a name. -/
def evaluatorCount (name : String) : Work Nat := do
  find (← get).evaluators name

/-- Insist on an evaluator of a name. -/
def requireEvaluator (name : String) : Work Unit := do
  let _ ← evaluatorCount name

/-- The cell in a register. -/
def cell (name : String) : Work CellId := do
  find (← get).cells name

/-- The tree in a register. -/
def tree (name : String) : Work Tree := do
  find (← get).trees name

/-- The stream of a name. -/
def stream (name : String) : Work TokenStream := do
  find (← get).streams name

/-- Keep a cell in a register. -/
def setCell (name : String) (x : CellId) : Work Unit :=
  modify fun session => { session with cells := session.cells.set name x }

/-- Give an environment a name. -/
def setEnvironment (name : String) (env : TableId) : Work Unit :=
  modify fun session => { session with environments := session.environments.set name env }

/-- Give an evaluator its count. -/
def setEvaluator (name : String) (count : Nat) : Work Unit :=
  modify fun session => { session with evaluators := session.evaluators.set name count }

/-- Keep a tree in a register. -/
def setTree (name : String) (tree : Tree) : Work Unit :=
  modify fun session => { session with trees := session.trees.set name tree }

/-- Give a stream a name. -/
def setStream (name : String) (stream : TokenStream) : Work Unit :=
  modify fun session => { session with streams := session.streams.set name stream }

/-- Do something if a name is given. -/
def ifNamed (target : Option String) (work : String → Work Unit) : Work Unit :=
  match target with
  | some name => work name
  | none => pure ()

/-- Keep an event. -/
def emit (event : Event) : Work Unit :=
  modify fun session => { session with events := event :: session.events }

/-! ### Working on the store -/

/-- Compute on the store of the session. -/
def onStore {α : Type} (computation : Eval α) : Work α := fun session =>
  let store := session.store
  let session := { session with store := Store.empty }
  match computation store with
  | .ok a later => .ok a { session with store := later }
  | .error failure later => .error (.failed failure) { session with store := later }

/-- Answer or be refused as it has been found out. -/
def ofExcept {α : Type} : Except Failure α → Work α
  | .ok a => pure a
  | .error failure => throw (.failed failure)

/-- Read the store of the session. -/
def reading {α : Type} (read : Store → Except Failure α) : Work α := do
  ofExcept (read (← get).store)

/-- Compute on the store with the count of an evaluator, which is kept also if the computation
fails. -/
def forcing {α : Type} (evaluator : String) (computation : Eval α) : Work α := do
  let count ← evaluatorCount evaluator
  let outcome ← onStore do
    modify fun store => { store with forced := count }
    Eval.outcome computation
  setEvaluator evaluator (← get).store.forced
  ofExcept outcome

/-! ### Descriptions -/

/-- A cell holds a value. -/
def holdsValue (store : Store) (x : CellId) : Bool :=
  match store.cell x with
  | .value _ => true
  | .suspended _ => false

/-- The description of a value, whose integer must be within the limit. -/
def describeValue (store : Store) : Value → Except Failure ValueView
  | .num n => if writable n then .ok (.number n) else .error .oversizeNumber
  | .nil => .ok .nil
  | .pair head tail => .ok (.pair (holdsValue store head) (holdsValue store tail))
  | .func f => .ok (.function f.name)

/-- The description of a cell. -/
def describe (x : CellId) (store : Store) : Except Failure CellView :=
  match store.cell x with
  | .suspended _ => .ok .suspended
  | .value v => (describeValue store v).map .value

/-- The description of a tree, whose integers must be within the limit. -/
def describeTree (tree : Tree) : Work Reply :=
  if tree.writable then pure (.tree tree) else throw (.failed .oversizeNumber)

end Session

end ByNeed
