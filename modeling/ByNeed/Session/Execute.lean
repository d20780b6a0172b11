/-
**Carrying out commands.**

Every command insists on the environment and then on the evaluator of its step, whether it needs
them or not (`execute`). Each kind of command has its own function, which is given that environment,
reads its registers from left to right, and writes a register last, so that a command that fails
writes none. Only a stream moves on also when reading from it fails.
-/

import ByNeed.Display
import ByNeed.Interpreter
import ByNeed.Session.State

namespace ByNeed.Session

/-! ### Building -/

/-- Build a cell. -/
def construct (depth : Nat) (env : TableId) : Construction → Work CellId
  | .parse code => onStore (Reader.parse depth env code)
  | .number numeral => onStore do Eval.value (.num (← Eval.ofExcept numeral.read))
  | .nil => onStore (Eval.value .nil)
  | .truth flag => onStore (Eval.value (boolean flag))
  | .pair head tail => do
    let head ← cell head
    let tail ← cell tail
    onStore (Eval.value (.pair head tail))
  | .point x y => onStore do
    Interpreter.point (← Eval.ofExcept x.read) (← Eval.ofExcept y.read)
  | .function f => onStore (Eval.value (.func f.1))
  | .probe x label => do
    let x ← cell x
    onStore (Eval.suspend (.observe label x))
  | .apply f args => do
    let f ← cell f
    let args ← args.mapM cell
    onStore (applyAll depth f args)
  | .half side x => do
    let x ← cell x
    onStore (takeHalf side x)
  | .interact program state x y => do
    let program ← cell program
    let state ← cell state
    onStore do
      Interpreter.interact depth program state (← Eval.ofExcept x.read) (← Eval.ofExcept y.read)
  | .streamExpr name => do
    let before ← stream name
    let (outcome, later) ← onStore (Reader.readFrom depth env [] before)
    setStream name later
    ofExcept outcome

/-- Build a cell, describe it, and keep it if a register is named. -/
def build (depth : Nat) (env : TableId) (target : Option String) (construction : Construction) :
    Work Reply := do
  let x ← construct depth env construction
  let view ← reading (describe x)
  ifNamed target fun name => setCell name x
  pure (.cell view)

/-! ### Environments -/

/-- A new environment, with the builtins or without. -/
def createEnvironment (builtins : Bool) : Work TableId := do
  if builtins then
    let env ← onStore Builtins.create
    emit (.registeredBuiltins Builtins.all.length)
    pure env
  else onStore Environment.create

/-- Carry out a batch of definitions. -/
def load (depth : Nat) (env : TableId) (code : String) : Work Nat := do
  let count ← onStore (Definitions.load depth env code)
  emit (.parsedDefinitions count)
  pure count

/-- The names that are bound, in the order of their characters. -/
def sortedNames (bindings : Table) : List String :=
  (bindings.map Prod.fst).mergeSort fun a b => !(b < a)

/-- Work on environments and their definitions. -/
def workOnEnvironment (depth : Nat) (env : TableId) : EnvironmentCommand → Work Reply
  | .create target builtins => do
    let table ← createEnvironment builtins
    setEnvironment target table
    pure .done
  | .clone target => do
    setEnvironment target env
    pure .done
  | .load code => do
    return .defined (← load depth env code)
  | .define name x => do
    let x ← cell x
    onStore (Environment.define env name x)
    pure .done
  | .defineAll items => do
    let items ← items.mapM fun (name, x) => do return (name, ← cell x)
    onStore (Environment.defineAll env items)
    pure .done
  | .lookup target name => do
    match ← onStore (Environment.lookup env name) with
    | none => pure .notFound
    | some x =>
      let view ← reading (describe x)
      ifNamed target fun name => setCell name x
      pure (.found view)
  | .contains name => do
    return .contains (← onStore (Environment.lookup env name)).isSome
  | .names => do
    let bindings ← onStore (Environment.bindings env)
    pure (.names (sortedNames bindings))
  | .showBindings => do
    return .text (← reading fun store => store.showBindings depth env)
  | .showEnvironment => do
    return .text (← reading fun store => store.showEnvironment depth env)

/-! ### Looking and asking -/

/-- Look at cells and trees. -/
def inspect (depth : Nat) : Inspection → Work Reply
  | .view x => do
    let x ← cell x
    return .cell (← reading (describe x))
  | .same x y => do
    let x ← cell x
    let y ← cell y
    pure (.same (x = y))
  | .showCell x => do
    let x ← cell x
    return .text (← reading fun store => store.showCell depth x)
  | .equalTrees x y => do
    let first ← tree x
    let second ← tree y
    pure (.equal (first = second))

/-- Two cells are equal numbers or both the empty list. -/
def equalNumbers (depth : Nat) (x y : CellId) : Eval Bool := do
  match ← force depth x, ← force depth y with
  | .num m, .num n => pure (m = n)
  | .nil, .nil => pure true
  | _, _ => pure false

/-- Ask for values. -/
def demand (depth : Nat) (env : TableId) (evaluator : String) : Demand → Work Reply
  | .force x => do
    let x ← cell x
    let v ← forcing evaluator (force depth x)
    return .value (← reading fun store => describeValue store v)
  | .integer x operation => do
    let x ← cell x
    let n ← forcing evaluator do (← force depth x).toInt operation
    if writable n then pure (.integer n) else throw (.failed .oversizeNumber)
  | .equalNumbers x y => do
    let x ← cell x
    let y ← cell y
    return .equal (← forcing evaluator (equalNumbers depth x y))
  | .isNil x => do
    let x ← cell x
    return .isNil (← forcing evaluator (isNil depth x))
  | .elements target x => do
    let x ← cell x
    let found ← forcing evaluator (elements depth x)
    let views ← found.mapM fun x => reading (describe x)
    ifNamed target fun name =>
      found.zipIdx.forM fun (x, k) => setCell (name ++ "." ++ decimal k) x
    pure (.elements views)
  | .render x => do
    let x ← cell x
    return .text (← forcing evaluator (render depth x))
  | .source x => do
    let x ← cell x
    return .text (← forcing evaluator (source depth x))
  | .materialize target x => do
    let x ← cell x
    let tree ← forcing evaluator (materialize depth x)
    let reply ← describeTree tree
    ifNamed target fun name => setTree name tree
    pure reply
  | .eval code => do
    return .text (← forcing evaluator (Interpreter.eval depth env code))
  | .materializeCode code => do
    describeTree (← forcing evaluator (Interpreter.materialize depth env code))

/-! ### Streams -/

/-- Work on streams of tokens. -/
def workOnStream : StreamCommand → Work Reply
  | .start target code => do
    setStream target (.ofText code)
    pure .done
  | .peek name => do
    let (token, later) := (← stream name).peek
    setStream name later
    pure (.token token)
  | .advance name => do
    let (token, later) := (← stream name).advance
    setStream name later
    pure (.token token)
  | .expectEnd name => do
    let (outcome, later) := (← stream name).expectEnd
    setStream name later
    ofExcept (outcome.mapError .fault)
    pure .done

/-! ### Commands -/

/-- Carry out a command with an environment and the evaluator of the given name. -/
def executeWith (depth : Nat) (env : TableId) (evaluator : String) : Command → Work Reply
  | .build target construction => build depth env target construction
  | .environment command => workOnEnvironment depth env command
  | .newEvaluator target => do
    setEvaluator target 0
    pure .done
  | .inspect inspection => inspect depth inspection
  | .demand asked => demand depth env evaluator asked
  | .stream command => workOnStream command

/-- Carry out the command of a step, insisting on its environment and its evaluator. -/
def execute (depth : Nat) (step : Step) : Work Reply := do
  let env ← environment step.env
  requireEvaluator step.evaluator
  executeWith depth env step.evaluator step.command

end ByNeed.Session
