/-
**What is not forced is not seen.**

A computation that leaves a cell suspended cannot tell which suspension the cell holds: with any
other one in its place, be it one that fails or never ends, it gives the same answer and leaves the
same store, that cell apart (`unforced_unseen`).

* `Store.suspendAt`: the store with another suspension in a cell;
* `Overlooks`: the computation gives a cell its value, or overlooks its suspension; it is closed
  under going on with another computation (`Overlooks.bind`), so that every part of forcing and of
  the traversals has it, by induction on the depth.
-/

import ByNeed.Proofs.Effect
import ByNeed.Proofs.Evolution
import ByNeed.Proofs.History

namespace ByNeed

/-! ### Another suspension in a cell -/

namespace Store

variable {store : Store} {d x : CellId} {s : Suspension}

/-- The store with another suspension in a cell. -/
def suspendAt (store : Store) (d : CellId) (s : Suspension) : Store :=
  { store with cells := store.cells.setIfInBounds d.index (.suspended s) }

theorem cell_suspendAt (there : store.Has d) (s : Suspension) (x : CellId) :
    (store.suspendAt d s).cell x = if x = d then .suspended s else store.cell x := by
  rcases d with ⟨i⟩
  rcases x with ⟨j⟩
  have inside : i < store.cells.size := there
  by_cases same : j = i
  · subst same
    simp [suspendAt, cell, inside]
  · simp [suspendAt, cell, same, Ne.symm same]

/-- A cell that is added comes after the cells that are there. -/
theorem alloc_suspendAt (there : store.Has d) (s : Suspension) (c : Cell) :
    (store.suspendAt d s).alloc c = ((store.alloc c).1, (store.alloc c).2.suspendAt d s) := by
  have inside : d.index < store.cells.size := there
  have pushed : (store.cells.setIfInBounds d.index (.suspended s)).push c =
      (store.cells.push c).setIfInBounds d.index (.suspended s) := by
    simp only [Array.setIfInBounds, Array.size_push, inside, Nat.lt_succ_of_lt inside,
      ↓reduceDIte]
    rw [Array.set_push, dif_pos inside]
  simp [alloc, suspendAt, pushed]

/-- A value is given to another cell. -/
theorem commit_suspendAt (other : x ≠ d) (store : Store) (s : Suspension) (v : Value) :
    (store.suspendAt d s).commit x v = (store.commit x v).suspendAt d s := by
  have apart : d.index ≠ x.index := fun same => other (congrArg CellId.mk same.symm)
  simp [commit, suspendAt, Array.setIfInBounds_comm _ _ apart]

/-- Another cell is as it was, also if there is no cell to be given the value. -/
theorem cell_commit_other (other : x ≠ d) (store : Store) (v : Value) :
    (store.commit x v).cell d = store.cell d := by
  rcases x with ⟨i⟩
  rcases d with ⟨j⟩
  have apart : i ≠ j := fun same => other (congrArg CellId.mk same)
  simp [commit, cell, apart]

/-- A cell is there and holds a value. -/
def Settled (store : Store) (d : CellId) : Prop :=
  store.Has d ∧ ∃ v, store.cell d = .value v

theorem settled_commit (there : store.Has d) (v : Value) : (store.commit d v).Settled d :=
  ⟨(has_commit_iff store d v).mpr there, v, by rw [cell_commit there, if_pos rfl]⟩

end Store

/-! ### Overlooking a suspension -/

/-- **A computation that answers gives the cell its value, or overlooks its suspension**: with any
other suspension in the cell it gives the same answer and leaves the same store, that cell apart. A
value that the cell holds already stays. -/
structure Overlooks {α : Type} (d : CellId) (computation : Eval α) : Prop where
  settled : ∀ {store later : Store} {a : α}, computation store = .ok a later → store.Settled d →
    later.Settled d
  unseen : ∀ {store later : Store} {a : α} {s : Suspension}, computation store = .ok a later →
    store.cell d = .suspended s →
      later.Settled d ∨ later.cell d = .suspended s ∧
        ∀ s', computation (store.suspendAt d s') = .ok a (later.suspendAt d s')

variable {α β : Type} {d x y : CellId} {v : Value}

/-- The cell is still there after a computation that answers. -/
theorem Overlooks.has {computation : Eval α} {store later : Store} {a : α} {s : Suspension}
    (overlooks : Overlooks d computation) (ended : computation store = .ok a later)
    (suspended : store.cell d = .suspended s) : later.Has d := by
  rcases overlooks.unseen ended suspended with settled | ⟨still, -⟩
  · exact settled.1
  · exact Store.has_of_suspended still

theorem overlooks_pure (a : α) : Overlooks d (pure a : Eval α) := by
  constructor
  · intro store later b ended settled
    cases ended
    exact settled
  · intro store later b s ended suspended
    cases ended
    exact Or.inr ⟨suspended, fun _ => rfl⟩

theorem overlooks_throw (failure : Failure) : Overlooks d (throw failure : Eval α) := by
  constructor
  · intro store later a ended
    cases ended
  · intro store later a s ended
    cases ended

/-- **A computation that goes on with another.** -/
theorem Overlooks.bind {computation : Eval α} {next : α → Eval β}
    (first : Overlooks d computation) (rest : ∀ a, Overlooks d (next a)) :
    Overlooks d (computation >>= next) := by
  constructor
  · intro store last b ended settled
    obtain ⟨a, later, ended₁, ended₂⟩ := bind_eq_ok ended
    exact (rest a).settled ended₂ (first.settled ended₁ settled)
  · intro store last b s ended suspended
    obtain ⟨a, later, ended₁, ended₂⟩ := bind_eq_ok ended
    rcases first.unseen ended₁ suspended with settled | ⟨still, same⟩
    · exact Or.inl ((rest a).settled ended₂ settled)
    rcases (rest a).unseen ended₂ still with settled | ⟨still', same'⟩
    · exact Or.inl settled
    · exact Or.inr ⟨still', fun s' => by rw [bind_of_ok (same s'), same' s']⟩

theorem Overlooks.foldlM {f : α → β → Eval α} {items : List β} (each : ∀ a b, Overlooks d (f a b))
    (a : α) : Overlooks d (items.foldlM f a) := by
  induction items generalizing a with
  | nil => exact overlooks_pure a
  | cons item rest ih =>
    rw [List.foldlM_cons]
    exact (each a item).bind ih

/-- Looking at the store is overlooking if what follows does not depend on the suspension, or gives
the cell its value. -/
theorem overlooks_get {next : Store → Eval α} (rest : ∀ store, Overlooks d (next store))
    (same : ∀ store s, store.cell d = .suspended s →
      (∀ s', next (store.suspendAt d s') = next store) ∨
        ∀ a later, next store store = .ok a later → later.Settled d) :
    Overlooks d (get >>= next) := by
  constructor
  · intro store later a ended settled
    exact (rest store).settled ended settled
  · intro store later a s ended suspended
    rcases same store s suspended with same | settles
    · rcases (rest store).unseen ended suspended with settled | ⟨still, unseen⟩
      · exact Or.inl settled
      · refine Or.inr ⟨still, fun s' => ?_⟩
        show next (store.suspendAt d s') (store.suspendAt d s') = _
        rw [same s', unseen s']
    · exact Or.inl (settles a later ended)

/-- Looking at a cell, if what follows does the same whatever suspension is found there, or gives
the cell its value. -/
theorem overlooks_cell {next : Cell → Eval α} (rest : ∀ c, Overlooks d (next c))
    (same : x = d → (∀ s s', next (.suspended s) = next (.suspended s')) ∨
      ∀ (store later : Store) (s : Suspension) (a : α), store.cell d = .suspended s →
        next (.suspended s) store = .ok a later → later.Settled d) :
    Overlooks d (Eval.cell x >>= next) := by
  show Overlooks d (get >>= fun store => next (store.cell x))
  refine overlooks_get (fun store => rest _) fun store s suspended => ?_
  have there := Store.has_of_suspended suspended
  by_cases own : x = d
  · rw [own, suspended]
    rcases same own with same | settles
    · exact Or.inl fun s' => by rw [Store.cell_suspendAt there, if_pos rfl, same]
    · exact Or.inr fun a later ended => settles store later s a suspended ended
  · exact Or.inl fun s' => by rw [Store.cell_suspendAt there, if_neg own]

/-- A new cell does not show what the others hold. -/
theorem overlooks_alloc (c : Cell) : Overlooks d (Eval.alloc c) := by
  have allocates : ∀ store : Store,
      Eval.alloc c store = .ok (store.alloc c).1 (store.alloc c).2 := fun _ => rfl
  constructor
  · rintro store later x ended ⟨there, v, holds⟩
    rw [allocates] at ended
    cases ended
    exact ⟨(Store.has_alloc_iff store c).mpr (Or.inl there), v,
      (Store.cell_alloc_of_has there c).trans holds⟩
  · intro store later x s ended suspended
    rw [allocates] at ended
    cases ended
    have there := Store.has_of_suspended suspended
    refine Or.inr ⟨(Store.cell_alloc_of_has there c).trans suspended, fun s' => ?_⟩
    rw [allocates, Store.alloc_suspendAt there]

theorem overlooks_value (v : Value) : Overlooks d (Eval.value v) :=
  overlooks_alloc (.value v)

theorem overlooks_suspend (s : Suspension) : Overlooks d (Eval.suspend s) :=
  overlooks_alloc (.suspended s)

theorem overlooks_observe (label : String) : Overlooks d (Eval.observe label) := by
  constructor
  · intro store later _ ended settled
    cases ended
    exact settled
  · intro store later _ s ended suspended
    cases ended
    exact Or.inr ⟨suspended, fun _ => rfl⟩

/-- A cell that is given a value holds it, and another cell does not see it. -/
theorem overlooks_commit (x : CellId) (v : Value) : Overlooks d (Eval.commit x v) := by
  have commits : ∀ store : Store, Eval.commit x v store = .ok () (store.commit x v) := fun _ => rfl
  by_cases own : x = d
  · subst own
    constructor
    · intro store later _ ended settled
      cases ended
      exact Store.settled_commit settled.1 v
    · intro store later _ s ended suspended
      cases ended
      exact Or.inl (Store.settled_commit (Store.has_of_suspended suspended) v)
  constructor
  · rintro store later _ ended ⟨there, w, holds⟩
    cases ended
    exact ⟨(Store.has_commit_iff store x v).mpr there, w,
      (Store.cell_commit_other own store v).trans holds⟩
  · intro store later _ s ended suspended
    rw [commits] at ended
    cases ended
    refine Or.inr ⟨(Store.cell_commit_other own store v).trans suspended, fun s' => ?_⟩
    rw [commits, Store.commit_suspendAt own]

/-! ### Applying -/

theorem half_overlooks (side : Half) (v : Value) : Overlooks d (v.half side) := by
  unfold Value.half
  split
  · exact overlooks_pure _
  · exact overlooks_pure _
  · exact overlooks_throw _

theorem takeHalf_overlooks (side : Half) (x : CellId) : Overlooks d (takeHalf side x) := by
  refine overlooks_cell (fun c => ?_) fun _ => Or.inl fun _ _ => rfl
  cases c with
  | value v => exact half_overlooks side v
  | suspended s => exact overlooks_suspend _

theorem faultShowing_overlooks (reason : Int → Fault) (n : Int) :
    Overlooks d (Eval.faultShowing reason n : Eval α) := by
  unfold Eval.faultShowing
  split
  · exact overlooks_throw _
  · exact overlooks_throw _

theorem applyWith_overlooks {apply : CellId → CellId → Eval CellId}
    (applies : ∀ f x, Overlooks d (apply f x)) (v : Value) (x : CellId) :
    Overlooks d (v.applyWith apply x) := by
  rw [applyWith_eq_run]
  cases v.effect x with
  | answer y => exact overlooks_pure y
  | add c => exact overlooks_alloc c
  | take side y => exact takeHalf_overlooks side y
  | apply f y => exact applies f y
  | applyTwice f y z => exact (applies f y).bind fun g => applies g z
  | applyNested f g y => exact (applies g y).bind fun z => applies f z
  | refuse n => exact faultShowing_overlooks _ n

theorem applyCellWith_overlooks {applyValue : Value → CellId → Eval CellId}
    (applies : ∀ v x, Overlooks d (applyValue v x)) (f x : CellId) :
    Overlooks d (applyCellWith applyValue f x) := by
  refine overlooks_cell (fun c => ?_) fun _ => Or.inl fun _ _ => rfl
  cases c with
  | value v => exact applies v x
  | suspended s => exact overlooks_suspend _

/-- **Applying a cell** asks only whether it holds a value. -/
theorem apply_overlooks (depth : Nat) (f x : CellId) : Overlooks d (apply depth f x) := by
  induction depth generalizing f x with
  | zero => exact applyCellWith_overlooks (fun _ _ => overlooks_throw _) f x
  | succ depth ih => exact applyCellWith_overlooks (applyWith_overlooks ih) f x

/-! ### Forcing -/

theorem toInt_overlooks (operation : String) (v : Value) : Overlooks d (v.toInt operation) := by
  unfold Value.toInt
  split
  · exact overlooks_pure _
  · exact overlooks_throw _

theorem ofExcept_overlooks (result : Except Failure α) : Overlooks d (Eval.ofExcept result) := by
  cases result with
  | ok a => exact overlooks_pure a
  | error failure => exact overlooks_throw failure

/-- The answer to a question is the value of its cell, if there is one. -/
theorem answerWith_eq_ok {force : CellId → Eval Value} {name : Option String} {question : CellId}
    {store later : Store} {v : Value} :
    answerWith force name question store = .ok v later ↔ force question store = .ok v later := by
  cases ended : force question store with
  | ok w last =>
    have out := Eval.outcome_of_ok ended
    rw [answerWith, bind_of_ok out]
    rfl
  | error failure last =>
    have out := Eval.outcome_of_error ended
    rw [answerWith, bind_of_ok out]
    constructor
    · intro answered
      cases failure <;> cases answered
    · exact fun answered => nomatch answered

section Running

variable {force : CellId → Eval Value} {apply : CellId → CellId → Eval CellId}

/-- A failure on the way to the answer is not hidden: asking then fails, too. -/
theorem answerWith_overlooks (forces : ∀ x, Overlooks d (force x)) (name : Option String)
    (question : CellId) : Overlooks d (answerWith force name question) := by
  constructor
  · intro store later v ended settled
    exact (forces question).settled (answerWith_eq_ok.mp ended) settled
  · intro store later v s ended suspended
    rcases (forces question).unseen (answerWith_eq_ok.mp ended) suspended with settled | ⟨still, same⟩
    · exact Or.inl settled
    · exact Or.inr ⟨still, fun s' => answerWith_eq_ok.mpr (same s')⟩

theorem questionWith_overlooks (applies : ∀ f x, Overlooks d (apply f x)) (f : Func) :
    Overlooks d (questionWith apply f) := by
  refine (overlooks_value _).bind fun asked => ?_
  refine (overlooks_value _).bind fun never => ?_
  refine (overlooks_value _).bind fun first => ?_
  refine (overlooks_value _).bind fun second => ?_
  exact Overlooks.foldlM applies asked

/-- **Asking whether a cell is the empty list.** -/
theorem isNilWith_overlooks (forces : ∀ x, Overlooks d (force x))
    (applies : ∀ f x, Overlooks d (apply f x)) (x : CellId) :
    Overlooks d (isNilWith force apply x) := by
  refine (forces x).bind fun v => ?_
  cases v with
  | nil => exact overlooks_pure true
  | pair head tail => exact overlooks_pure false
  | num n => exact overlooks_throw _
  | func f =>
    refine (questionWith_overlooks applies f).bind fun question => ?_
    refine (answerWith_overlooks forces f.name question).bind fun answer => ?_
    split
    · exact overlooks_pure true
    split
    · exact overlooks_pure false
    · exact overlooks_throw _

/-- **Running a suspension.** -/
theorem run_overlooks (forces : ∀ x, Overlooks d (force x))
    (applies : ∀ f x, Overlooks d (apply f x)) (s : Suspension) :
    Overlooks d (s.run force apply) := by
  cases s with
  | apply f x =>
    refine (forces f).bind fun v => ?_
    exact (applyWith_overlooks applies v x).bind forces
  | half side x =>
    refine (forces x).bind fun v => ?_
    exact (half_overlooks side v).bind forces
  | lookup t name =>
    refine overlooks_get (fun store => ?_) fun store s _ => Or.inl fun s' => rfl
    split
    · exact forces _
    · exact overlooks_throw _
  | observe label x => exact (overlooks_observe label).bind fun _ => forces x
  | monop op x =>
    refine (forces x).bind fun v => ?_
    exact (toInt_overlooks op.name v).bind fun n => overlooks_pure _
  | binop op x y =>
    refine (forces x).bind fun v => ?_
    refine (toInt_overlooks op.name v).bind fun m => ?_
    refine (forces y).bind fun w => ?_
    exact (toInt_overlooks op.name w).bind fun n => ofExcept_overlooks _
  | isNil x => exact (isNilWith_overlooks forces applies x).bind fun flag => overlooks_pure _
  | share a b c =>
    refine (applies a c).bind fun f => ?_
    refine (applies b c).bind fun x => ?_
    exact (applies f x).bind forces

end Running

/-- The cell that is forced is given its value, and another one is overlooked if running overlooks
it. -/
theorem forceCellWith_overlooks {run : Suspension → Eval Value} (runs : ∀ s, Overlooks d (run s))
    (x : CellId) : Overlooks d (forceCellWith run x) := by
  refine overlooks_cell (fun c => ?_) fun own => Or.inr fun store later s v suspended ended => ?_
  · cases c with
    | value v => exact overlooks_pure v
    | suspended s =>
      refine (runs s).bind fun v => ?_
      exact (overlooks_commit x v).bind fun _ => overlooks_pure v
  · subst own
    obtain ⟨_, store₁, ended₁, ended₂⟩ := bind_eq_ok ended
    cases ended₂
    exact Store.settled_commit ((runs s).has ended₁ suspended) v

/-- **Forcing a cell.** -/
theorem force_overlooks (depth : Nat) (x : CellId) : Overlooks d (force depth x) := by
  induction depth generalizing x with
  | zero => exact forceCellWith_overlooks (fun _ => overlooks_throw _) x
  | succ depth ih => exact forceCellWith_overlooks (run_overlooks ih (apply_overlooks depth)) x

theorem isNil_overlooks (depth : Nat) (x : CellId) : Overlooks d (isNil depth x) :=
  isNilWith_overlooks (force_overlooks depth) (apply_overlooks depth) x

/-! ### Traversals -/

section Loops

variable {force : CellId → Eval Value} {find : CellId → Eval Tree}

theorem elementsWith_overlooks (forces : ∀ x, Overlooks d (force x)) (rounds : Nat)
    (found : List CellId) (x : CellId) : Overlooks d (elementsWith force rounds found x) := by
  induction rounds generalizing found x with
  | zero => exact overlooks_throw _
  | succ rounds ih =>
    refine (forces x).bind fun v => ?_
    cases v with
    | nil => exact overlooks_pure _
    | pair head tail => exact ih (head :: found) tail
    | num n => exact faultShowing_overlooks _ n
    | func f => exact overlooks_throw _

theorem materializeWith_overlooks (forces : ∀ x, Overlooks d (force x))
    (finds : ∀ x, Overlooks d (find x)) (rounds : Nat) (reversed : List Tree) (x : CellId) :
    Overlooks d (materializeWith force find rounds reversed x) := by
  induction rounds generalizing reversed x with
  | zero => exact overlooks_throw _
  | succ rounds ih =>
    refine (forces x).bind fun v => ?_
    cases v with
    | num n => exact overlooks_pure _
    | nil => exact overlooks_pure _
    | pair head tail => exact (finds head).bind fun first => ih (first :: reversed) tail
    | func f => exact overlooks_throw _

end Loops

theorem elements_overlooks (depth : Nat) (x : CellId) : Overlooks d (elements depth x) := by
  cases depth with
  | zero => exact overlooks_throw _
  | succ depth => exact elementsWith_overlooks (force_overlooks depth) (depth + 1) [] x

theorem materialize_overlooks (depth : Nat) (x : CellId) : Overlooks d (materialize depth x) := by
  induction depth generalizing x with
  | zero => exact overlooks_throw _
  | succ depth ih => exact materializeWith_overlooks (force_overlooks depth) ih (depth + 1) [] x

theorem render_overlooks (depth : Nat) (x : CellId) : Overlooks d (render depth x) := by
  refine (materialize_overlooks depth x).bind fun tree => ?_
  unfold showTree
  split
  · exact overlooks_pure _
  · exact overlooks_throw _

theorem sourceTokens_overlooks (depth : Nat) (x : CellId) :
    Overlooks d (sourceTokens depth x) := by
  induction depth generalizing x with
  | zero => exact overlooks_throw _
  | succ depth ih =>
    refine (force_overlooks depth x).bind fun v => ?_
    cases v with
    | num n =>
      show Overlooks d (if writable n then _ else _)
      split
      · exact overlooks_pure _
      · exact overlooks_throw _
    | nil => exact overlooks_pure _
    | pair head tail =>
      refine (ih head).bind fun first => ?_
      exact (ih tail).bind fun second => overlooks_pure _
    | func f => exact overlooks_throw _

/-! ### Evaluations -/

/-- What can be asked about a cell, with the type of the answer. -/
inductive Evaluation : Type → Type
  | force : Evaluation Value
  | elements : Evaluation (List CellId)
  | materialize : Evaluation Tree
  | render : Evaluation String
  | source : Evaluation String
  | isNil : Evaluation Bool

/-- Ask about a cell. -/
def Evaluation.run (depth : Nat) (x : CellId) : Evaluation α → Eval α
  | .force => ByNeed.force depth x
  | .elements => ByNeed.elements depth x
  | .materialize => ByNeed.materialize depth x
  | .render => ByNeed.render depth x
  | .source => ByNeed.source depth x
  | .isNil => ByNeed.isNil depth x

theorem Evaluation.overlooks (evaluation : Evaluation α) (depth : Nat) (x d : CellId) :
    Overlooks d (evaluation.run depth x) := by
  cases evaluation with
  | force => exact force_overlooks depth x
  | elements => exact elements_overlooks depth x
  | materialize => exact materialize_overlooks depth x
  | render => exact render_overlooks depth x
  | source => exact (sourceTokens_overlooks depth x).bind fun tokens => overlooks_pure _
  | isNil => exact isNil_overlooks depth x

/-- **What is not forced is not seen.** If asking about a cell leaves another cell suspended, it gives
the same answer with any other suspension in that cell, and leaves the same store but for the cell:
the same count, and the same contents of the other cells. -/
theorem unforced_unseen (evaluation : Evaluation α) (depth : Nat) (x d : CellId)
    {store later : Store} {s t : Suspension} {a : α} (suspended : store.cell d = .suspended s)
    (answered : evaluation.run depth x store = .ok a later) (still : later.cell d = .suspended t)
    (s' : Suspension) :
    ∃ later', evaluation.run depth x (store.suspendAt d s') = .ok a later' ∧
      later' = later.suspendAt d s' ∧ later'.forced = later.forced ∧
      ∀ y, y ≠ d → later'.cell y = later.cell y := by
  refine ⟨later.suspendAt d s', ?_, rfl, rfl, fun y other => ?_⟩
  · rcases (evaluation.overlooks depth x d).unseen answered suspended with ⟨-, v, holds⟩ | ⟨-, same⟩
    · rw [still] at holds
      cases holds
    · exact same s'
  · rw [Store.cell_suspendAt (Store.has_of_suspended still), if_neg other]

/-- Of a pair only the first half is asked for, and the second, an application of a name without a
definition, may be the pair's own second half, which never ends. -/
theorem unforced_unseen_half :
    let store := Interpreter.reached
      [(20, .define "first = ap car g\ng = ap ap cons ap inc 4 ap h 1")]
    let first : CellId := ⟨20⟩
    let second : CellId := ⟨26⟩
    let later := (render 20 first).after store
    store.cell second = .suspended (.apply ⟨24⟩ ⟨25⟩) ∧ later.forced = 3 ∧
      ∃ later', render 20 first (store.suspendAt second (.half .tail ⟨27⟩)) = .ok "5" later' ∧
        later' = later.suspendAt second (.half .tail ⟨27⟩) ∧ later'.forced = later.forced ∧
        ∀ y, y ≠ second → later'.cell y = later.cell y := by
  intro store first second later
  have suspended : store.cell second = .suspended (.apply ⟨24⟩ ⟨25⟩) := by decide +kernel
  have answered : (render 20 first).verdict store = .ok "5" := by decide +kernel
  have still : later.cell second = .suspended (.apply ⟨24⟩ ⟨25⟩) := by decide +kernel
  have counted : later.forced = 3 := by decide +kernel
  exact ⟨suspended, counted, unforced_unseen .render 20 first second suspended
    (Eval.eq_ok_of_verdict answered) still _⟩

end ByNeed
