/-
**What a computation ensures.**

A computation on the store ends with an answer or with a failure, and keeps what it did to the store
in both cases. `Eval.Ensures` says of one computation, started in one store, what holds at its end;
each operation on the store has the lemma that turns what is to hold after it into what is to hold
before.

* `bind_eq_ok`, `bind_eq_error`: how a computation that goes on with another has ended;
* `Eval.after`, `Eval.verdict`: the store and the answer or failure at the end;
* `apply_of_value`, `force_of_value`: applying and forcing a cell that holds a value.
-/

import ByNeed.Force

namespace ByNeed

/-! ### One computation after another -/

section Bind

variable {ε σ α β : Type} {s : σ}

/-- A computation goes on where its first part ended. -/
theorem bind_of_ok {first : EStateM ε σ α} {next : α → EStateM ε σ β} {a : α} {later : σ}
    (ended : first s = .ok a later) : (first >>= next) s = next a later := by
  show EStateM.bind first next s = next a later
  unfold EStateM.bind
  rw [ended]

/-- A computation fails where its first part failed. -/
theorem bind_of_error {first : EStateM ε σ α} {next : α → EStateM ε σ β} {failure : ε} {later : σ}
    (ended : first s = .error failure later) : (first >>= next) s = .error failure later := by
  show EStateM.bind first next s = .error failure later
  unfold EStateM.bind
  rw [ended]

/-- A computation that answers goes from the answer of its first part to that of the second. -/
theorem bind_eq_ok {first : EStateM ε σ α} {next : α → EStateM ε σ β} {b : β} {last : σ}
    (ended : (first >>= next) s = .ok b last) :
    ∃ a later, first s = .ok a later ∧ next a later = .ok b last := by
  change EStateM.bind first next s = .ok b last at ended
  unfold EStateM.bind at ended
  cases middle : first s with
  | ok a later => exact ⟨a, later, rfl, by rwa [middle] at ended⟩
  | error failure later =>
    rw [middle] at ended
    cases ended

/-- A computation that fails does so in its first part or in the second. -/
theorem bind_eq_error {first : EStateM ε σ α} {next : α → EStateM ε σ β} {failure : ε} {last : σ}
    (ended : (first >>= next) s = .error failure last) :
    first s = .error failure last ∨
      ∃ a later, first s = .ok a later ∧ next a later = .error failure last := by
  change EStateM.bind first next s = .error failure last at ended
  unfold EStateM.bind at ended
  cases middle : first s with
  | ok a later => exact Or.inr ⟨a, later, rfl, by rwa [middle] at ended⟩
  | error failure' later =>
    rw [middle] at ended
    cases ended
    exact Or.inl rfl

end Bind

/-! ### What holds at the end -/

namespace Eval

variable {α β : Type} {store : Store}

/-- **Started in the store, the computation ends as stated**: `good` holds of its answer and the
store after it, or `bad` of its failure and the store after it. -/
def Ensures (computation : Eval α) (store : Store) (good : α → Store → Prop)
    (bad : Failure → Store → Prop) : Prop :=
  match computation store with
  | .ok a later => good a later
  | .error failure later => bad failure later

variable {good : α → Store → Prop} {good' : β → Store → Prop} {bad bad' : Failure → Store → Prop}

theorem ensures_iff (computation : Eval α) :
    computation.Ensures store good bad ↔
      (∀ a later, computation store = .ok a later → good a later) ∧
        ∀ failure later, computation store = .error failure later → bad failure later := by
  unfold Ensures
  cases computation store <;> simp

/-- What is ensured depends on the outcome only. -/
theorem ensures_congr {computation other : Eval α} (same : computation store = other store) :
    computation.Ensures store good bad ↔ other.Ensures store good bad := by
  unfold Ensures
  rw [same]

theorem Ensures.ok {computation : Eval α} {a : α} {later : Store}
    (ensures : computation.Ensures store good bad) (ended : computation store = .ok a later) :
    good a later :=
  ((ensures_iff computation).mp ensures).1 a later ended

theorem Ensures.error {computation : Eval α} {failure : Failure} {later : Store}
    (ensures : computation.Ensures store good bad)
    (ended : computation store = .error failure later) : bad failure later :=
  ((ensures_iff computation).mp ensures).2 failure later ended

/-- What is ensured may be weakened. -/
theorem Ensures.mono {computation : Eval α} {better : α → Store → Prop}
    (ensures : computation.Ensures store better bad')
    (answers : ∀ a later, better a later → good a later)
    (failures : ∀ failure later, bad' failure later → bad failure later) :
    computation.Ensures store good bad := by
  rw [ensures_iff] at ensures ⊢
  exact ⟨fun a later ended => answers a later (ensures.1 a later ended),
    fun failure later ended => failures failure later (ensures.2 failure later ended)⟩

theorem ensures_bind (computation : Eval α) (next : α → Eval β) :
    (computation >>= next).Ensures store good' bad ↔
      computation.Ensures store (fun a later => (next a).Ensures later good' bad) bad := by
  unfold Ensures
  show (match EStateM.bind computation next store with
    | .ok a later => good' a later
    | .error failure later => bad failure later) ↔ _
  unfold EStateM.bind
  cases computation store <;> rfl

/-- **A computation that goes on with another**: the second starts where the first ended. -/
theorem Ensures.bind {computation : Eval α} {next : α → Eval β}
    (ensures : computation.Ensures store good bad')
    (answers : ∀ a later, good a later → (next a).Ensures later good' bad)
    (failures : ∀ failure later, bad' failure later → bad failure later) :
    (computation >>= next).Ensures store good' bad :=
  (ensures_bind computation next).mpr (ensures.mono answers failures)

/-! ### The operations -/

@[simp]
theorem ensures_pure (a : α) : (pure a : Eval α).Ensures store good bad ↔ good a store :=
  Iff.rfl

@[simp]
theorem ensures_throw (failure : Failure) :
    (throw failure : Eval α).Ensures store good bad ↔ bad failure store :=
  Iff.rfl

@[simp]
theorem ensures_fault (reason : Fault) :
    (fault reason : Eval α).Ensures store good bad ↔ bad (.fault reason) store :=
  Iff.rfl

@[simp]
theorem ensures_get {good : Store → Store → Prop} :
    (get : Eval Store).Ensures store good bad ↔ good store store :=
  Iff.rfl

@[simp]
theorem ensures_modify {good : Unit → Store → Prop} (change : Store → Store) :
    (modify change : Eval Unit).Ensures store good bad ↔ good () (change store) :=
  Iff.rfl

@[simp]
theorem ensures_modifyGet (change : Store → α × Store) :
    (modifyGet change : Eval α).Ensures store good bad ↔ good (change store).1 (change store).2 :=
  Iff.rfl

@[simp]
theorem ensures_cell {good : Cell → Store → Prop} (x : CellId) :
    (cell x).Ensures store good bad ↔ good (store.cell x) store :=
  Iff.rfl

@[simp]
theorem ensures_alloc {good : CellId → Store → Prop} (c : Cell) :
    (alloc c).Ensures store good bad ↔ good (store.alloc c).1 (store.alloc c).2 :=
  Iff.rfl

@[simp]
theorem ensures_value {good : CellId → Store → Prop} (v : Value) :
    (value v).Ensures store good bad ↔
      good (store.alloc (.value v)).1 (store.alloc (.value v)).2 :=
  Iff.rfl

@[simp]
theorem ensures_suspend {good : CellId → Store → Prop} (s : Suspension) :
    (suspend s).Ensures store good bad ↔
      good (store.alloc (.suspended s)).1 (store.alloc (.suspended s)).2 :=
  Iff.rfl

@[simp]
theorem ensures_commit {good : Unit → Store → Prop} (x : CellId) (v : Value) :
    (commit x v).Ensures store good bad ↔ good () (store.commit x v) :=
  Iff.rfl

@[simp]
theorem ensures_observe {good : Unit → Store → Prop} (label : String) :
    (observe label).Ensures store good bad ↔
      good () { store with trace := label :: store.trace } :=
  Iff.rfl

@[simp]
theorem ensures_outcome {computation : Eval α} {good : Except Failure α → Store → Prop} :
    (outcome computation).Ensures store good bad ↔
      computation.Ensures store (fun a later => good (.ok a) later)
        fun failure later => good (.error failure) later := by
  unfold Ensures outcome
  cases computation store <;> rfl

/-- A fault that shows a number is that fault, or the number is beyond the limit. -/
theorem ensures_faultShowing (reason : Int → Fault) (n : Int) :
    (faultShowing reason n : Eval α).Ensures store good bad ↔
      bad (bif writable n then .fault (reason n) else .oversizeNumber) store := by
  unfold faultShowing
  cases writable n <;> rfl

theorem outcome_of_ok {computation : Eval α} {a : α} {later : Store}
    (ended : computation store = .ok a later) : outcome computation store = .ok (.ok a) later := by
  unfold outcome
  rw [ended]

theorem outcome_of_error {computation : Eval α} {failure : Failure} {later : Store}
    (ended : computation store = .error failure later) :
    outcome computation store = .ok (.error failure) later := by
  unfold outcome
  rw [ended]

/-! ### The store and the answer at the end -/

/-- The store after a computation, however it ended. -/
def after (computation : Eval α) (store : Store) : Store :=
  match computation store with
  | .ok _ later => later
  | .error _ later => later

theorem after_of_ok {computation : Eval α} {a : α} {later : Store}
    (ended : computation store = .ok a later) : computation.after store = later := by
  rw [Eval.after, ended]

theorem after_of_error {computation : Eval α} {failure : Failure} {later : Store}
    (ended : computation store = .error failure later) : computation.after store = later := by
  rw [Eval.after, ended]

/-- What holds after the first part of a computation, and is kept by the rest, holds at the end. -/
theorem after_bind {computation : Eval α} {next : α → Eval β} {holds : Store → Prop}
    (first : holds (computation.after store))
    (rest : ∀ a later, computation store = .ok a later → holds later → holds ((next a).after later)) :
    holds ((computation >>= next).after store) := by
  cases ended : computation store with
  | ok a later =>
    rw [after_of_ok ended] at first
    have goes : (computation >>= next).after store = (next a).after later := by
      unfold Eval.after
      rw [bind_of_ok ended]
    rw [goes]
    exact rest a later ended first
  | error failure later =>
    rw [after_of_error ended] at first
    rwa [after_of_error (bind_of_error ended)]

/-- What holds of the store at either end holds of the store after the computation. -/
theorem Ensures.after {computation : Eval α} (holds : Store → Prop)
    (ensures : computation.Ensures store good bad) (answers : ∀ a later, good a later → holds later)
    (failures : ∀ failure later, bad failure later → holds later) :
    holds (computation.after store) := by
  unfold Eval.after
  cases ended : computation store with
  | ok a later => exact answers a later (ensures.ok ended)
  | error failure later => exact failures failure later (ensures.error ended)

deriving instance DecidableEq for Except

/-- The answer or the failure of a computation. -/
def verdict (computation : Eval α) (store : Store) : Except Failure α :=
  match computation store with
  | .ok a _ => .ok a
  | .error failure _ => .error failure

theorem eq_ok_of_verdict {computation : Eval α} {store : Store} {a : α}
    (answered : computation.verdict store = .ok a) :
    computation store = .ok a (computation.after store) := by
  unfold Eval.verdict at answered
  unfold Eval.after
  cases ended : computation store with
  | ok b later =>
    rw [ended] at answered
    cases answered
    rfl
  | error failure later =>
    rw [ended] at answered
    cases answered

theorem eq_error_of_verdict {computation : Eval α} {store : Store} {failure : Failure}
    (failed : computation.verdict store = .error failure) :
    computation store = .error failure (computation.after store) := by
  unfold Eval.verdict at failed
  unfold Eval.after
  cases ended : computation store with
  | ok a later =>
    rw [ended] at failed
    cases failed
  | error failure' later =>
    rw [ended] at failed
    cases failed
    rfl

/-- What is ensured holds of the verdict and of the store after the computation. -/
theorem Ensures.verdict {computation : Eval α}
    (ensures : computation.Ensures store good bad) :
    (∃ a, computation.verdict store = .ok a ∧ good a (computation.after store)) ∨
      ∃ failure, computation.verdict store = .error failure ∧
        bad failure (computation.after store) := by
  unfold Eval.verdict Eval.after
  cases ended : computation store with
  | ok a later => exact Or.inl ⟨a, rfl, ensures.ok ended⟩
  | error failure later => exact Or.inr ⟨failure, rfl, ensures.error ended⟩

end Eval

/-! ### Applying and forcing -/

variable {store : Store} {f x : CellId} {v : Value}

/-- A suspended operator. -/
theorem apply_of_suspended {s : Suspension} (suspended : store.cell f = .suspended s)
    (depth : Nat) (x : CellId) : apply depth f x store = Eval.suspend (.apply f x) store := by
  have read : Eval.cell f store = .ok (.suspended s) store := by rw [← suspended]; rfl
  cases depth with
  | zero => rw [apply, applyCellWith, bind_of_ok read]
  | succ depth => rw [apply, applyCellWith, bind_of_ok read]

/-- An operator that holds a value. -/
theorem apply_of_value (holds : store.cell f = .value v) (depth : Nat) (x : CellId) :
    apply (depth + 1) f x store = v.applyWith (apply depth) x store := by
  have read : Eval.cell f store = .ok (.value v) store := by rw [← holds]; rfl
  rw [apply, applyCellWith, bind_of_ok read]

/-- An operator that holds a value, and no depth. -/
theorem apply_zero_of_value (holds : store.cell f = .value v) (x : CellId) :
    apply 0 f x store = .error .depthExhausted store := by
  have read : Eval.cell f store = .ok (.value v) store := by rw [← holds]; rfl
  rw [apply, applyCellWith, bind_of_ok read]
  rfl

/-- A cell that holds a value answers it. -/
theorem force_of_value (holds : store.cell x = .value v) (depth : Nat) :
    force depth x store = .ok v store := by
  have read : Eval.cell x store = .ok (.value v) store := by rw [← holds]; rfl
  cases depth with
  | zero => exact bind_of_ok read
  | succ depth => exact bind_of_ok read

/-- A suspended cell is given the value that its suspension produces. -/
theorem force_of_suspended {s : Suspension} (suspended : store.cell x = .suspended s) (depth : Nat) :
    force (depth + 1) x store =
      (do
        let v ← s.run (force depth) (apply depth)
        Eval.commit x v
        pure v : Eval Value) store := by
  have read : Eval.cell x store = .ok (.suspended s) store := by rw [← suspended]; rfl
  exact bind_of_ok read

/-- A suspended cell whose suspension has produced a value. -/
theorem force_of_run {s : Suspension} {depth : Nat} {later : Store}
    (suspended : store.cell x = .suspended s)
    (ran : s.run (force depth) (apply depth) store = .ok v later) :
    force (depth + 1) x store = .ok v (later.commit x v) :=
  (force_of_suspended suspended depth).trans (bind_of_ok ran)

/-- A suspended cell, and no depth. -/
theorem force_zero_of_suspended {s : Suspension} (suspended : store.cell x = .suspended s) :
    force 0 x store = .error .depthExhausted store := by
  have read : Eval.cell x store = .ok (.suspended s) store := by rw [← suspended]; rfl
  exact bind_of_ok read

/-- Running a lookup. -/
theorem run_lookup (force : CellId → Eval Value) (apply : CellId → CellId → Eval CellId)
    (table : TableId) (name : String) (store : Store) :
    Suspension.run force apply (.lookup table name) store =
      (match (store.table table).lookup name with
        | some x => force x
        | none => Eval.fault (.undefinedSymbol name)) store :=
  rfl

end ByNeed
