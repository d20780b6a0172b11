/-
**Sessions.**

A session is run step by step from a start with the builtins and one evaluator. A step that fails
changes no register, while what it did to the store stays, and the session goes on.

* `Session.perform`, `Session.performAll`: carry out one step or several;
* `Session.forcedPerRound`: how many cells an expression forces when it is evaluated again;
* `Session.answer`: what a computation in a fresh session answers.
-/

import ByNeed.Session.Execute

namespace ByNeed.Session

/-- A session without anything in it. -/
def blank : Session :=
  ⟨Store.empty, [], [], [], [], [], []⟩

/-- The name of the environment that a session starts with. -/
def firstEnvironment : String := "env"

/-- The name of the evaluator that a session starts with. -/
def firstEvaluator : String := "ev"

/-- Set up the environment with the builtins and the evaluator that a session starts with. -/
def setUp : Work Unit := do
  let env ← createEnvironment true
  setEnvironment firstEnvironment env
  setEvaluator firstEvaluator 0

/-- The session after a computation, however it ended. -/
def after {α : Type} (work : Work α) (session : Session) : Session :=
  match work session with
  | .ok _ later => later
  | .error _ later => later

/-- The session that others start from. -/
def start : Session :=
  after setUp blank

/-- The outcome of a computation, which itself is not refused. -/
def outcome {α : Type} (work : Work α) : Work (Except Refusal α) := fun session =>
  match work session with
  | .ok a later => .ok (.ok a) later
  | .error refusal later => .ok (.error refusal) later

/-- Start new records of the labels observed and of the changes to the cells. -/
def clearRecords : Work Unit :=
  modify fun session => { session with store := { session.store with trace := [], changes := [] } }

/-- Carry out a step. -/
def perform (depth : Nat) (step : Step) : Work Answer := do
  clearRecords
  let result ← outcome (execute depth step)
  let session ← get
  pure ⟨result, session.evaluators.lookup step.evaluator, session.store.trace.reverse⟩

/-- Carry out steps, one after the other. -/
def performAll (depth : Nat) (steps : List Step) : Work (List Answer) :=
  steps.mapM (perform depth)

/-- A command with the environment and the evaluator that a session starts with. -/
def Step.ofCommand (command : Command) : Step :=
  ⟨firstEnvironment, firstEvaluator, command⟩

/-- How many cells an expression forces when it is evaluated for the second time. -/
def forcedPerRound (depth : Nat) (definitions code : String) : Work Nat := do
  let env ← environment firstEnvironment
  let _ ← load depth env definitions
  let _ ← forcing firstEvaluator (Interpreter.eval depth env code)
  let before ← evaluatorCount firstEvaluator
  let _ ← forcing firstEvaluator (Interpreter.eval depth env code)
  let later ← evaluatorCount firstEvaluator
  pure (later - before)

/-- The answer of a computation in a fresh session, with the events of the session in order. -/
def answer {α : Type} (work : Work α) : Except Refusal α × List Event :=
  match work start with
  | .ok a later => (.ok a, later.events.reverse)
  | .error refusal later => (.error refusal, later.events.reverse)

end ByNeed.Session
