/-
**Every cell is forced at most once.**

A step of a session, whether it succeeds or fails, replaces the suspension of a cell by a value at
most once, also where forcing the cell asks for the cell again further down; a value is never
replaced. The count of the step's evaluator grows by the number of cells whose suspensions were
replaced, and the other counts stay as they are (`forced_once`).
-/

import ByNeed.Proofs.Steps

namespace ByNeed.Session

/-- **A step forces every cell at most once**, and counts what it forces for its own evaluator. -/
structure ForcesOnce (step : Step) (session later : Session) : Prop where
  /-- No suspension is replaced twice. -/
  once : (replacedCells later.store.changes).Nodup
  /-- A cell is replaced exactly if it was suspended, before the step or when the step added it, and
  holds a value after the step. -/
  exactly : ∀ x, x ∈ replacedCells later.store.changes ↔
    session.store.WasSuspended later.store.changes x ∧ ∃ v, later.store.cell x = .value v
  /-- A value that a cell held before the step, was added with, or was given, is still there after
  the step. -/
  keeps : ∀ x v, (session.store.Has x ∧ session.store.cell x = .value v) ∨
    .added x (.value v) ∈ later.store.changes ∨ .replaced x v ∈ later.store.changes →
      later.store.cell x = .value v
  /-- The count of the evaluator of the step grows by the number of cells that were replaced, and
  the other counts are as they were, that of an evaluator made anew apart. -/
  counts : ∀ name, step.command ≠ .newEvaluator name →
    later.evaluators.lookup name = (session.evaluators.lookup name).map fun count =>
      if name = step.evaluator then count + (replacedCells later.store.changes).length else count

/-- The record of a step that starts with a new one says what the step did. -/
theorem Advances.forcesOnce {step : Step} {session later : Session}
    (advances : Advances step session.cleared later) : ForcesOnce step session later := by
  obtain ⟨made, changes, tallies⟩ := advances.tallies
  obtain ⟨made', changes', recorded⟩ := advances.evolves.recorded
  -- The record was empty before the step, so all that is on it now was made by the step.
  have all : made = later.store.changes := by rw [changes, cleared, List.append_nil]
  have all' : made' = later.store.changes := by rw [changes', cleared, List.append_nil]
  rw [all] at tallies
  rw [all'] at recorded
  refine ⟨recorded.nodup, fun x => recorded.mem_replaced_iff, ?_, tallies⟩
  rintro x v (⟨there, holds⟩ | added | replaced)
  · exact advances.evolves.value there holds
  · exact recorded.given x v added
  · exact recorded.holds x v replaced

/-- **Every cell is forced at most once, and counted exactly**: so does every step after every
history, and a cell that holds a value keeps it in every session that follows. -/
theorem forced_once (history : List (Nat × Step)) (depth : Nat) (step : Step) :
    ForcesOnce step (reached history) (reached (history ++ [(depth, step)])) ∧
      ∀ more x v, (reached history).store.Has x → (reached history).store.cell x = .value v →
        (reached (history ++ more)).store.cell x = .value v := by
  have sound := sound_reached history
  constructor
  · rw [reached_append]
    exact (perform_advances depth step sound).forcesOnce
  · intro more x v there holds
    rw [reached_append]
    exact (continued_evolves more sound).2 x v there holds

/-- A cell that is asked for twice, and is defined by another, is forced once. -/
theorem forced_once_shared :
    let define := (100, Step.ofCommand (.environment (.load "g = ap inc h\nh = ap inc 4")))
    let eval := (100, Step.ofCommand (.demand (.eval "ap ap add g ap ap mul g h")))
    let later := reached [define, eval]
    (replacedCells later.store.changes).length = 5 ∧
      later.evaluators.lookup firstEvaluator = some 5 ∧
      ForcesOnce eval.2 (reached [define]) later :=
  ⟨by decide +kernel, by decide +kernel, (forced_once [_] 100 _).1⟩

end ByNeed.Session
