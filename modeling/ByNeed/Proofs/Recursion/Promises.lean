/-
**What the cells of a recurrence promise.**

Once the expression of a recurrence is bound to its name, its cells stand in a circle: the name is
looked up in a cell that the function behind the name leads to. Each call goes through a test of its
argument, a choice by the truth value that this gives, a number that is one less, and the function
again, by a lookup the first time and by the value that the lookup has left afterwards; and a call may
be cut short anywhere for want of depth. Through all of this a cell keeps to what it promised when it
was added: a certain value, or certain data. With the promise goes a number that bounds how deeply
forcing the cell nests; a cell that needs no depth holds its value already.

* `Promise`, `Fulfils`, `Pursues`: what a cell promises, and the values and suspensions that keep it;
* `Layout`, `Laid`: the cells of the definition, and what they hold;
* `Honours`: **the cells of a store keep their promises**;
* `run_delivers`: each of the suspensions of a recurrence leads to the next;
* `force_delivers`: **forcing a cell finds what it promised**, or lacks depth, and forcing any other
  cell breaks no promise (`force_upholds`);
* `materialize_delivers`: the tree of a cell that promised data.
-/

import ByNeed.Proofs.Labels
import ByNeed.Proofs.Recursion.Recurrence
import ByNeed.Proofs.Respects

namespace ByNeed

/-! ### Promises -/

/-- **What a cell promises**: a value, or data, which may still have to be forced in parts. -/
inductive Promise
  | value (v : Value)
  | datum (d : Datum)

/-- The promises of the cells, in the order of the cells, each with a bound on the depth it takes. -/
abbrev Promises := Labels (Promise × Nat)

namespace Promises

variable {promises later : Promises} {x : CellId} {promise : Promise} {limit limit' : Nat}

/-- **A cell makes a promise**, and takes no more depth than a limit. -/
def Makes (promises : Promises) (x : CellId) (promise : Promise) (limit : Nat) : Prop :=
  ∃ cost ≤ limit, promises.of x = some (promise, cost)

theorem Makes.mono (makes : promises.Makes x promise limit) (grown : promises <+: later)
    (le : limit ≤ limit') : later.Makes x promise limit' := by
  obtain ⟨cost, within, made⟩ := makes
  exact ⟨cost, Nat.le_trans within le, Labels.of_mono made grown⟩

end Promises

/-- **A value is what was promised**; the cells that it holds take no more depth than a limit. -/
inductive Fulfils (promises : Promises) : Value → Promise → Nat → Prop
  | value {v : Value} {limit : Nat} : Fulfils promises v (.value v) limit
  | num {n : Int} {limit : Nat} : Fulfils promises (.num n) (.datum (.num n)) limit
  | nil {limit : Nat} : Fulfils promises .nil (.datum .nil) limit
  | pair {head tail : CellId} {first second : Datum} {limit : Nat} :
      promises.Makes head (.datum first) limit → promises.Makes tail (.datum second) limit →
      Fulfils promises (.pair head tail) (.datum (.pair first second)) limit

/-! ### The cells of a definition -/

/-- **The cells of the definition of a recurrence**, and the name that it is bound to. -/
structure Layout where
  env : TableId
  name : String
  recurrence : Recurrence
  /-- The number zero. -/
  zero : CellId
  /-- The comparison with zero. -/
  equals : CellId
  /-- What to start with. -/
  start : CellId
  /-- The choice of what to start with by the comparison. -/
  test : CellId
  /-- The primitive that goes from a number to the next. -/
  step : CellId
  /-- The primitive that goes from a number to the one before. -/
  decrease : CellId
  /-- The mention of the name. -/
  self : CellId
  /-- The function behind the name, at the number before. -/
  again : CellId
  /-- The primitive at a number and at what the number before comes to. -/
  next : CellId
  /-- The whole definition. -/
  whole : CellId

/-- The function that a recurrence is. -/
def Layout.function (layout : Layout) : Func :=
  .ternaryOnTwo .share layout.test layout.next

/-- What picks one of two arguments by a truth value. -/
def selector (truth : Bool) : Binary :=
  if truth then .first (some "t") else .second (some "f")

theorem boolean_eq (truth : Bool) : boolean truth = .func (.binary (selector truth)) := by
  cases truth <;> rfl

/-- **The cells of a definition promise what they hold**; all but the mention of the name need no
depth. -/
structure Laid (layout : Layout) (promises : Promises) : Prop where
  zero : promises.Makes layout.zero (.value (.num 0)) 0
  equals : promises.Makes layout.equals (.value (.func (.binaryOn (.binop .eq) layout.zero))) 0
  start : promises.Makes layout.start (.value layout.recurrence.start.value) 0
  test : promises.Makes layout.test
    (.value (.func (.ternaryOnTwo .swap layout.equals layout.start))) 0
  step : promises.Makes layout.step (.value (.func (.binary layout.recurrence.step))) 0
  decrease : promises.Makes layout.decrease (.value (.func (.unary (.monop .dec)))) 0
  self : promises.Makes layout.self (.value (.func layout.function)) 1
  again : promises.Makes layout.again
    (.value (.func (.ternaryOnTwo .compose layout.self layout.decrease))) 0
  next : promises.Makes layout.next
    (.value (.func (.ternaryOnTwo .share layout.step layout.again))) 0
  whole : promises.Makes layout.whole (.value (.func layout.function)) 0

/-- **A suspension leads to what was promised**, and takes no more depth than a limit. A call takes
six runs for each number that it goes through. -/
inductive Pursues (layout : Layout) (promises : Promises) : Suspension → Promise → Nat → Prop
  /-- The name is looked up. -/
  | lookup {cost : Nat} : 0 < cost →
      Pursues layout promises (.lookup layout.env layout.name) (.value (.func layout.function)) cost
  /-- A number is one less than another. -/
  | decrease {y : CellId} {m : Int} {limit cost : Nat} : promises.Makes y (.datum (.num m)) limit →
      limit < cost → Pursues layout promises (.monop .dec y) (.datum (.num (m - 1))) cost
  /-- A number is compared with zero. -/
  | test {y : CellId} {m : Int} {limit cost : Nat} : promises.Makes y (.datum (.num m)) limit →
      limit < cost →
      Pursues layout promises (.binop .eq layout.zero y) (.value (boolean (0 == m))) cost
  /-- A truth value is given what to start with. -/
  | offer {q : CellId} {truth : Bool} {limit cost : Nat} :
      promises.Makes q (.value (boolean truth)) limit → limit < cost →
      Pursues layout promises (.apply q layout.start)
        (.value (.func (.binaryOn (selector truth) layout.start))) cost
  /-- The function is called. -/
  | call {y : CellId} {n limit cost : Nat} : promises.Makes y (.datum (.num n)) limit →
      limit + 6 * n + 6 ≤ cost →
      Pursues layout promises (.share layout.test layout.next y)
        (.datum (layout.recurrence.datum n)) cost
  /-- A choice is made, for which the second cell matters only if the number is not zero. -/
  | choose {p z : CellId} {n limit cost : Nat} :
      promises.Makes p (.value (.func (.binaryOn (selector (0 == (n : Int))) layout.start))) limit →
      (n ≠ 0 → promises.Makes z (.datum (layout.recurrence.datum n)) limit) → limit < cost →
      Pursues layout promises (.apply p z) (.datum (layout.recurrence.datum n)) cost
  /-- The primitive is applied to a number and to what the number before comes to. -/
  | next {y : CellId} {n limit cost : Nat} : promises.Makes y (.datum (.num (n + 1))) limit →
      limit + 6 * n + 10 ≤ cost →
      Pursues layout promises (.share layout.step layout.again y)
        (.datum (layout.recurrence.datum (n + 1))) cost
  /-- The function is called by its name. -/
  | again {y : CellId} {n limit cost : Nat} : promises.Makes y (.datum (.num n)) limit →
      limit + 6 * n + 6 < cost →
      Pursues layout promises (.apply layout.self y) (.datum (layout.recurrence.datum n)) cost
  /-- A number and an integer are put together. -/
  | combine {op : Gathering} {y z : CellId} {m n : Int} {limit cost : Nat} :
      promises.Makes y (.datum (.num m)) limit → promises.Makes z (.datum (.num n)) limit →
      limit < cost →
      Pursues layout promises (.binop op.binop y z) (.datum (.num (op.combine m n))) cost

/-- What a cell holds keeps a promise. -/
def Cell.KeepsTo (layout : Layout) (promises : Promises) (promise : Promise) (cost : Nat) :
    Cell → Prop
  | .value v => Fulfils promises v promise cost
  | .suspended s => Pursues layout promises s promise cost

section Mono

variable {layout : Layout} {promises later : Promises} {promise : Promise} {v : Value} {c : Cell}
  {s : Suspension} {limit limit' cost : Nat}

theorem Fulfils.mono (fulfils : Fulfils promises v promise limit) (grown : promises <+: later)
    (le : limit ≤ limit') : Fulfils later v promise limit' := by
  cases fulfils with
  | value => exact .value
  | num => exact .num
  | nil => exact .nil
  | pair head tail => exact .pair (head.mono grown le) (tail.mono grown le)

theorem Laid.mono (laid : Laid layout promises) (grown : promises <+: later) : Laid layout later where
  zero := laid.zero.mono grown (Nat.le_refl _)
  equals := laid.equals.mono grown (Nat.le_refl _)
  start := laid.start.mono grown (Nat.le_refl _)
  test := laid.test.mono grown (Nat.le_refl _)
  step := laid.step.mono grown (Nat.le_refl _)
  decrease := laid.decrease.mono grown (Nat.le_refl _)
  self := laid.self.mono grown (Nat.le_refl _)
  again := laid.again.mono grown (Nat.le_refl _)
  next := laid.next.mono grown (Nat.le_refl _)
  whole := laid.whole.mono grown (Nat.le_refl _)

theorem Pursues.mono (pursues : Pursues layout promises s promise cost) (grown : promises <+: later) :
    Pursues layout later s promise cost := by
  have same : ∀ {x promise limit}, promises.Makes x promise limit → later.Makes x promise limit :=
    fun makes => makes.mono grown (Nat.le_refl _)
  cases pursues with
  | lookup pos => exact .lookup pos
  | decrease makes lt => exact .decrease (same makes) lt
  | test makes lt => exact .test (same makes) lt
  | offer makes lt => exact .offer (same makes) lt
  | call makes le => exact .call (same makes) le
  | choose makes other lt => exact .choose (same makes) (fun positive => same (other positive)) lt
  | next makes le => exact .next (same makes) le
  | again makes lt => exact .again (same makes) lt
  | combine first second lt => exact .combine (same first) (same second) lt

theorem Pursues.pos (pursues : Pursues layout promises s promise cost) : 0 < cost := by
  cases pursues <;> omega

theorem Cell.KeepsTo.mono (keeps : c.KeepsTo layout promises promise cost)
    (grown : promises <+: later) : c.KeepsTo layout later promise cost := by
  cases c with
  | value v => exact Fulfils.mono keeps grown (Nat.le_refl _)
  | suspended s => exact Pursues.mono keeps grown

end Mono

/-! ### Stores that keep promises -/

/-- **The cells of a store keep their promises**, those of the definition among them, and the name is
bound to the whole of it. -/
structure Honours (layout : Layout) (promises : Promises) (store : Store) : Prop where
  length : promises.length = store.cells.size
  cells : ∀ x promise cost, promises.of x = some (promise, cost) →
    (store.cell x).KeepsTo layout promises promise cost
  laid : Laid layout promises
  bound : (store.table layout.env).lookup layout.name = some layout.whole

/-- **Promises go on in a later store**: they are kept, and cells that were added make more. -/
structure Prolongs (layout : Layout) (promises promises' : Promises) (later : Store) : Prop where
  grown : promises <+: promises'
  honours : Honours layout promises' later

variable {layout : Layout} {promises promises' promises'' : Promises} {store later last : Store}
  {x f : CellId} {promise : Promise} {v : Value} {s : Suspension} {limit cost depth : Nat}

theorem Prolongs.refl (honours : Honours layout promises store) :
    Prolongs layout promises promises store :=
  ⟨List.prefix_refl promises, honours⟩

theorem Prolongs.trans (first : Prolongs layout promises promises' later)
    (second : Prolongs layout promises' promises'' last) : Prolongs layout promises promises'' last :=
  ⟨first.grown.trans second.grown, second.honours⟩

namespace Honours

theorem has_iff (honours : Honours layout promises store) :
    store.Has x ↔ x.index < promises.length := by
  rw [honours.length]
  rfl

/-- A cell that promised a value and needs no depth holds it. -/
theorem holds (honours : Honours layout promises store) (makes : promises.Makes x (.value v) 0) :
    store.cell x = .value v := by
  obtain ⟨cost, within, made⟩ := makes
  have keeps := honours.cells x _ _ made
  cases held : store.cell x with
  | value w =>
    rw [held] at keeps
    cases keeps
    rfl
  | suspended s =>
    -- A suspension that keeps a promise needs some depth.
    rw [held] at keeps
    have positive := Pursues.pos keeps
    omega

/-- **A cell is added**, with a promise that it keeps or without one. -/
theorem alloc {c : Cell} {label : Option (Promise × Nat)} (honours : Honours layout promises store)
    (keeps : ∀ promise cost, label = some (promise, cost) → c.KeepsTo layout promises promise cost) :
    Prolongs layout promises (promises ++ [label]) (store.alloc c).2 := by
  have grown : promises <+: promises ++ [label] := List.prefix_append promises [label]
  refine ⟨grown, by simp [Store.alloc, honours.length], ?_, honours.laid.mono grown, honours.bound⟩
  intro x promise cost made
  rcases Labels.of_append_cases honours.length c made with ⟨there, made⟩ | ⟨rfl, same⟩
  · rw [Store.cell_alloc_of_has there]
    exact (honours.cells x promise cost made).mono grown
  · rw [Store.cell_alloc_self]
    exact (keeps promise cost same).mono grown

/-- **A cell is added that makes a promise.** -/
theorem exists_alloc {c : Cell} (honours : Honours layout promises store)
    (keeps : c.KeepsTo layout promises promise cost) :
    ∃ promises', Prolongs layout promises promises' (store.alloc c).2 ∧
      promises'.Makes (store.alloc c).1 promise cost := by
  refine ⟨promises ++ [some (promise, cost)], honours.alloc fun promise' cost' same => ?_, cost,
    Nat.le_refl _, Labels.of_alloc honours.length c _⟩
  cases same
  exact keeps

/-- **A cell is given a value** that it promised, if it made a promise. -/
theorem commit (honours : Honours layout promises store) (there : store.Has x)
    (fulfils : ∀ promise cost, promises.of x = some (promise, cost) →
      Fulfils promises v promise cost) :
    Prolongs layout promises promises (store.commit x v) := by
  refine ⟨List.prefix_refl promises, ?_, ?_, honours.laid, honours.bound⟩
  · simp [Store.commit, honours.length]
  · intro y promise cost made
    rw [Store.cell_commit there]
    by_cases same : y = x
    · rw [if_pos same]
      exact fulfils promise cost (same ▸ made)
    · rw [if_neg same]
      exact honours.cells y promise cost made

end Honours

/-! ### Computations that keep promises -/

section Delivers

variable {α β : Type} {computation : Eval α} {good : α → Promises → Store → Prop}
  {good' : β → Promises → Store → Prop} {short short' : Prop}

/-- **A computation delivers**: the promises go on to its end, where `good` holds, or it lacks depth,
and then it was too `short`. -/
def Delivers (layout : Layout) (promises : Promises) (store : Store) (computation : Eval α)
    (good : α → Promises → Store → Prop) (short : Prop) : Prop :=
  computation.Ensures store
    (fun a later => ∃ promises', Prolongs layout promises promises' later ∧ good a promises' later)
    fun failure later => ∃ promises', Prolongs layout promises promises' later ∧
      failure = .depthExhausted ∧ short

theorem Delivers.congr {other : Eval α} (same : computation store = other store)
    (delivers : Delivers layout promises store other good short) :
    Delivers layout promises store computation good short :=
  (Eval.ensures_congr same).mpr delivers

theorem Delivers.lack (honours : Honours layout promises store) (lacks : short) :
    Delivers layout promises store (throw .depthExhausted : Eval α) good short :=
  ⟨promises, .refl honours, rfl, lacks⟩

theorem Delivers.pure {a : α} (honours : Honours layout promises store) (here : good a promises store) :
    Delivers layout promises store (Pure.pure a) good short :=
  ⟨promises, .refl honours, here⟩

theorem Delivers.mono {better : α → Promises → Store → Prop}
    (delivers : Delivers layout promises store computation better short)
    (answers : ∀ a promises' later, better a promises' later → good a promises' later)
    (shorter : short → short') : Delivers layout promises store computation good short' := by
  refine Eval.Ensures.mono delivers ?_ ?_
  · rintro a later ⟨promises', prolongs, here⟩
    exact ⟨promises', prolongs, answers a promises' later here⟩
  · rintro failure later ⟨promises', prolongs, lacks, because⟩
    exact ⟨promises', prolongs, lacks, shorter because⟩

/-- **One computation after another**: the second goes on with the promises of the first. -/
theorem Delivers.bind {next : α → Eval β}
    (delivers : Delivers layout promises store computation good short)
    (rest : ∀ a promises' later, Prolongs layout promises promises' later → good a promises' later →
      Delivers layout promises' later (next a) good' short')
    (shorter : short → short') :
    Delivers layout promises store (computation >>= next) good' short' := by
  refine Eval.Ensures.bind delivers ?_ ?_
  · rintro a later ⟨promises', prolongs, here⟩
    refine Eval.Ensures.mono (rest a promises' later prolongs here) ?_ ?_
    · rintro b last ⟨promises'', prolongs', there⟩
      exact ⟨promises'', prolongs.trans prolongs', there⟩
    · rintro failure last ⟨promises'', prolongs', lacks⟩
      exact ⟨promises'', prolongs.trans prolongs', lacks⟩
  · rintro failure later ⟨promises', prolongs, lacks, because⟩
    exact ⟨promises', prolongs, lacks, shorter because⟩

/-- A cell is added that holds a suspension and makes a promise. -/
theorem delivers_suspend (honours : Honours layout promises store)
    (pursues : Pursues layout promises s promise cost) :
    Delivers layout promises store (Eval.suspend s)
      (fun y promises' later => promises'.Makes y promise cost ∧ store.Builds later ∧
        later.cell y = .suspended s) short := by
  have keeps : (Cell.suspended s).KeepsTo layout promises promise cost := pursues
  obtain ⟨promises', prolongs, makes⟩ := honours.exists_alloc keeps
  exact ⟨promises', prolongs, makes, .alloc _ .refl, Store.cell_alloc_self store _⟩

/-- A cell is added that holds what it promises. -/
theorem delivers_value (honours : Honours layout promises store)
    (fulfils : Fulfils promises v promise cost) :
    Delivers layout promises store (Eval.value v)
      (fun y promises' _ => promises'.Makes y promise cost) short := by
  have keeps : (Cell.value v).KeepsTo layout promises promise cost := fulfils
  exact honours.exists_alloc keeps

/-- Applying a cell that holds a value takes some depth. -/
theorem delivers_apply {good : CellId → Promises → Store → Prop}
    (honours : Honours layout promises store) (holds : store.cell f = .value v)
    (shallow : depth = 0 → short)
    (deep : ∀ d, depth = d + 1 →
      Delivers layout promises store (v.applyWith (apply d) x) good short) :
    Delivers layout promises store (apply depth f x) good short := by
  cases depth with
  | zero => exact .congr (apply_zero_of_value holds x) (.lack honours (shallow rfl))
  | succ d => exact .congr (apply_of_value holds d x) (deep d rfl)

end Delivers

/-! ### One call -/

/-- **The test of an argument**: its comparison with zero is offered what to start with. -/
theorem apply_test {y : CellId} {n : Nat} (honours : Honours layout promises store)
    (argument : promises.Makes y (.datum (.num n)) limit) :
    Delivers layout promises store (apply depth layout.test y)
      (fun p promises' later =>
        promises'.Makes p (.value (.func (.binaryOn (selector (0 == (n : Int))) layout.start)))
          (limit + 2) ∧ ∃ s, later.cell p = .suspended s) (depth ≤ 1) := by
  refine delivers_apply honours (honours.holds honours.laid.test) (by omega) ?_
  rintro d rfl
  have compared : Delivers layout promises store (apply d layout.equals y)
      (fun q promises' later => promises'.Makes q (.value (boolean (0 == (n : Int)))) (limit + 1) ∧
        store.Builds later ∧ later.cell q = .suspended (.binop .eq layout.zero y)) (d + 1 ≤ 1) := by
    refine delivers_apply honours (honours.holds honours.laid.equals) (by omega) fun _ _ => ?_
    exact delivers_suspend honours (.test argument (Nat.lt_succ_self limit))
  refine compared.bind ?_ id
  rintro q promises₁ store₁ prolongs₁ ⟨makes, -, suspended⟩
  refine .congr (apply_of_suspended suspended d layout.start) ?_
  refine (delivers_suspend prolongs₁.honours (.offer makes (Nat.lt_succ_self _))).mono ?_ id
  rintro p promises₂ store₂ ⟨makes, -, suspended⟩
  exact ⟨makes, _, suspended⟩

/-- **The other choice**: a suspension that leads to the result, unless the argument is zero. -/
theorem apply_next {y : CellId} {n : Nat} (honours : Honours layout promises store)
    (argument : promises.Makes y (.datum (.num n)) limit) :
    Delivers layout promises store (apply depth layout.next y)
      (fun z promises' later => store.Builds later ∧
        (n ≠ 0 → promises'.Makes z (.datum (layout.recurrence.datum n)) (limit + 6 * n + 4)))
      (depth ≤ 0) := by
  refine delivers_apply honours (honours.holds honours.laid.next) (by omega) fun _ _ => ?_
  cases n with
  | zero =>
    have prolongs : Prolongs layout promises (promises ++ [none])
        (store.alloc (.suspended (.share layout.step layout.again y))).2 :=
      honours.alloc fun _ _ same => nomatch same
    exact ⟨_, prolongs, .alloc _ .refl, fun positive => absurd rfl positive⟩
  | succ n =>
    refine (delivers_suspend honours (.next argument (Nat.le_refl _))).mono ?_ id
    rintro z promises₁ store₁ ⟨makes, builds, -⟩
    exact ⟨builds, fun _ => makes.mono (List.prefix_refl _) (by omega)⟩

/-- **The call at the number before**, by the name or by the function that it has been found to
stand for. -/
theorem apply_again {y : CellId} {n : Nat} (honours : Honours layout promises store)
    (argument : promises.Makes y (.datum (.num (n + 1))) limit) :
    Delivers layout promises store (apply depth layout.again y)
      (fun z promises' _ =>
        promises'.Makes z (.datum (layout.recurrence.datum n)) (limit + 6 * n + 8)) (depth ≤ 1) := by
  refine delivers_apply honours (honours.holds honours.laid.again) (by omega) ?_
  rintro d rfl
  have decreased : Delivers layout promises store (apply d layout.decrease y)
      (fun z promises' later => promises'.Makes z (.datum (.num n)) (limit + 1) ∧
        store.Builds later ∧ later.cell z = .suspended (.monop .dec y)) (d + 1 ≤ 1) := by
    refine delivers_apply honours (honours.holds honours.laid.decrease) (by omega) fun _ _ => ?_
    have less : (n : Int) + 1 - 1 = n := by omega
    exact less ▸ delivers_suspend honours (.decrease argument (Nat.lt_succ_self limit))
  refine decreased.bind ?_ id
  rintro z promises₁ store₁ prolongs₁ ⟨makes, -, -⟩
  have honours₁ := prolongs₁.honours
  -- The name is looked up by the first call that comes this far; its cell holds the function from
  -- then on, and is applied on the spot.
  obtain ⟨cost, within, made⟩ := honours₁.laid.self
  have keeps := honours₁.cells _ _ _ made
  cases held : store₁.cell layout.self with
  | suspended s =>
    refine .congr (apply_of_suspended held d z) ?_
    refine (delivers_suspend honours₁ (.again makes (Nat.lt_succ_self _))).mono ?_ id
    rintro w promises₂ store₂ ⟨makes, -⟩
    exact makes.mono (List.prefix_refl _) (by omega)
  | value v =>
    rw [held] at keeps
    cases keeps
    refine delivers_apply honours₁ held (by omega) fun _ _ => ?_
    refine (delivers_suspend honours₁ (.call makes (Nat.le_refl _))).mono ?_ id
    rintro w promises₂ store₂ ⟨makes, -⟩
    exact makes.mono (List.prefix_refl _) (by omega)

/-- **The primitive is given a number and what the number before comes to**: arithmetic is suspended,
and a pair is there at once. -/
theorem call_step {apply : CellId → CellId → Eval CellId} {y z : CellId} {n : Nat}
    (honours : Honours layout promises store)
    (number : promises.Makes y (.datum (.num (n + 1))) limit)
    (result : promises.Makes z (.datum (layout.recurrence.datum n)) limit) :
    Delivers layout promises store
      ((Value.func (.binaryOn layout.recurrence.step y)).applyWith apply z)
      (fun w promises' _ =>
        promises'.Makes w (.datum (layout.recurrence.datum (n + 1))) (limit + 1)) False := by
  cases same : layout.recurrence with
  | arithmetic op start =>
    rw [same] at result
    exact (delivers_suspend honours (.combine number result (Nat.lt_succ_self limit))).mono
      (fun _ _ _ made => made.1) id
  | pairing start =>
    rw [same] at result
    exact (delivers_value honours (.pair number result)).mono
      (fun _ _ _ made => made.mono (List.prefix_refl _) (Nat.le_succ limit)) id

/-! ### Forcing -/

/-- **Forcing finds what a cell promised**, unless the depth is within the limit of the promise. -/
def ForcesPromised (layout : Layout) (depth : Nat) (force : CellId → Eval Value) : Prop :=
  ∀ {promises : Promises} {store : Store} {x : CellId} {promise : Promise} {limit : Nat},
    Honours layout promises store → promises.Makes x promise limit →
    Delivers layout promises store (force x)
      (fun v promises' _ => Fulfils promises' v promise limit) (depth ≤ limit)

theorem Fulfils.eq_value {w : Value} (fulfils : Fulfils promises w (.value v) limit) : w = v := by
  cases fulfils
  rfl

theorem Fulfils.eq_num {n : Int} (fulfils : Fulfils promises v (.datum (.num n)) limit) :
    v = .num n := by
  cases fulfils
  rfl

/-- What a recurrence starts with is what it comes to at zero. -/
theorem fulfils_start (promises : Promises) (recurrence : Recurrence) (limit : Nat) :
    Fulfils promises recurrence.start.value (.datum (recurrence.datum 0)) limit := by
  rw [recurrence.datum_zero]
  cases recurrence.start with
  | number numeral => exact .num
  | nil => exact .nil

section Run

variable {force : CellId → Eval Value} {y z : CellId} {n : Nat}

/-- **A call**: a choice between what to start with and the primitive is forced. -/
theorem run_call (forces : ForcesPromised layout depth force)
    (honours : Honours layout promises store)
    (argument : promises.Makes y (.datum (.num n)) limit) (le : limit + 6 * n + 6 ≤ cost) :
    Delivers layout promises store
      ((Suspension.share layout.test layout.next y).run force (apply depth))
      (fun v promises' _ => Fulfils promises' v (.datum (layout.recurrence.datum n)) cost)
      (depth + 1 ≤ cost) := by
  refine (apply_test honours argument).bind ?_ (by omega)
  rintro p promises₁ store₁ prolongs₁ ⟨chooses, s, suspended⟩
  refine (apply_next prolongs₁.honours (argument.mono prolongs₁.grown (Nat.le_refl _))).bind ?_
    (by omega)
  rintro z promises₂ store₂ prolongs₂ ⟨builds, leads⟩
  -- The choice has only just been added, so it is suspended still, and its application is, too.
  rw [← builds.cell_eq (Store.has_of_suspended suspended)] at suspended
  have choice : Delivers layout promises₂ store₂ (apply depth p z)
      (fun w promises' _ => promises'.Makes w (.datum (layout.recurrence.datum n))
        (limit + 6 * n + 5)) False := by
    refine .congr (apply_of_suspended suspended depth z) ?_
    exact (delivers_suspend prolongs₂.honours
      (.choose (chooses.mono prolongs₂.grown (by omega)) leads (Nat.lt_succ_self _))).mono
      (fun _ _ _ made => made.1) id
  refine choice.bind ?_ False.elim
  rintro w promises₃ store₃ prolongs₃ makes
  exact (forces prolongs₃.honours makes).mono
    (fun _ _ _ fulfils => fulfils.mono (List.prefix_refl _) (by omega)) (by omega)

/-- **The primitive at a number and the call before it.** -/
theorem run_next (forces : ForcesPromised layout depth force)
    (honours : Honours layout promises store)
    (argument : promises.Makes y (.datum (.num (n + 1))) limit) (le : limit + 6 * n + 10 ≤ cost) :
    Delivers layout promises store
      ((Suspension.share layout.step layout.again y).run force (apply depth))
      (fun v promises' _ => Fulfils promises' v (.datum (layout.recurrence.datum (n + 1))) cost)
      (depth + 1 ≤ cost) := by
  have partly : Delivers layout promises store (apply depth layout.step y)
      (fun u promises' _ =>
        promises'.Makes u (.value (.func (.binaryOn layout.recurrence.step y))) 0) (depth ≤ 0) :=
    delivers_apply honours (honours.holds honours.laid.step) (by omega) fun _ _ =>
      delivers_value honours .value
  refine partly.bind ?_ (by omega)
  rintro u promises₁ store₁ prolongs₁ makesU
  refine (apply_again prolongs₁.honours (argument.mono prolongs₁.grown (Nat.le_refl _))).bind ?_
    (by omega)
  rintro z promises₂ store₂ prolongs₂ makesZ
  have argument₂ : promises₂.Makes y (.datum (.num (n + 1))) (limit + 6 * n + 8) :=
    argument.mono (prolongs₁.grown.trans prolongs₂.grown) (by omega)
  have whole : Delivers layout promises₂ store₂ (apply depth u z)
      (fun w promises' _ => promises'.Makes w (.datum (layout.recurrence.datum (n + 1)))
        (limit + 6 * n + 9)) (depth ≤ 0) := by
    refine delivers_apply prolongs₂.honours
      (prolongs₂.honours.holds (makesU.mono prolongs₂.grown (Nat.le_refl _))) (by omega) fun _ _ => ?_
    exact (call_step prolongs₂.honours argument₂ makesZ).mono (fun _ _ _ makes => makes) False.elim
  refine whole.bind ?_ (by omega)
  rintro w promises₃ store₃ prolongs₃ makesW
  exact (forces prolongs₃.honours makesW).mono
    (fun _ _ _ fulfils => fulfils.mono (List.prefix_refl _) (by omega)) (by omega)

/-- **A choice is made** by the truth value of the test. -/
theorem run_choose {p : CellId} {apply : CellId → CellId → Eval CellId}
    (forces : ForcesPromised layout depth force) (honours : Honours layout promises store)
    (chooses : promises.Makes p
      (.value (.func (.binaryOn (selector (0 == (n : Int))) layout.start))) limit)
    (other : n ≠ 0 → promises.Makes z (.datum (layout.recurrence.datum n)) limit)
    (lt : limit < cost) :
    Delivers layout promises store ((Suspension.apply p z).run force apply)
      (fun v promises' _ => Fulfils promises' v (.datum (layout.recurrence.datum n)) cost)
      (depth + 1 ≤ cost) := by
  refine (forces honours chooses).bind ?_ (by omega)
  rintro v promises₁ store₁ prolongs₁ fulfils
  obtain rfl := fulfils.eq_value
  have honours₁ := prolongs₁.honours
  cases n with
  | zero =>
    show Delivers layout promises₁ store₁ (force layout.start) _ _
    refine (forces honours₁ honours₁.laid.start).mono ?_ (by omega)
    rintro w promises₂ store₂ fulfils
    obtain rfl := fulfils.eq_value
    exact fulfils_start promises₂ layout.recurrence cost
  | succ n =>
    show Delivers layout promises₁ store₁ (force z) _ _
    refine (forces honours₁ ((other (Nat.succ_ne_zero n)).mono prolongs₁.grown (Nat.le_refl _))).mono
      ?_ (by omega)
    exact fun _ _ _ fulfils => fulfils.mono (List.prefix_refl _) (by omega)

/-- **The function is called by its name**, once that has been found. -/
theorem run_again {apply : CellId → CellId → Eval CellId} (forces : ForcesPromised layout depth force)
    (honours : Honours layout promises store)
    (argument : promises.Makes y (.datum (.num n)) limit) (lt : limit + 6 * n + 6 < cost) :
    Delivers layout promises store ((Suspension.apply layout.self y).run force apply)
      (fun v promises' _ => Fulfils promises' v (.datum (layout.recurrence.datum n)) cost)
      (depth + 1 ≤ cost) := by
  refine (forces honours honours.laid.self).bind ?_ (by omega)
  rintro v promises₁ store₁ prolongs₁ fulfils
  obtain rfl := fulfils.eq_value
  have argument₁ := argument.mono prolongs₁.grown (Nat.le_refl limit)
  refine (delivers_suspend prolongs₁.honours (.call argument₁ (Nat.le_refl _))).bind ?_ False.elim
  rintro w promises₂ store₂ prolongs₂ ⟨makes, -⟩
  exact (forces prolongs₂.honours makes).mono
    (fun _ _ _ fulfils => fulfils.mono (List.prefix_refl _) (by omega)) (by omega)

/-- **Running a suspension finds what was promised**, if forcing does. -/
theorem run_delivers (forces : ForcesPromised layout depth force)
    (honours : Honours layout promises store) (pursues : Pursues layout promises s promise cost) :
    Delivers layout promises store (s.run force (apply depth))
      (fun v promises' _ => Fulfils promises' v promise cost) (depth + 1 ≤ cost) := by
  cases pursues with
  | lookup positive =>
    have run : Suspension.run force (apply depth) (.lookup layout.env layout.name) store =
        force layout.whole store := by
      rw [run_lookup, honours.bound]
    refine .congr run ((forces honours honours.laid.whole).mono ?_ (by omega))
    exact fun _ _ _ fulfils => fulfils.mono (List.prefix_refl _) (Nat.zero_le _)
  | @decrease y m limit _ makes lt =>
    refine (forces honours makes).bind ?_ (by omega)
    rintro v promises₁ store₁ prolongs₁ fulfils
    obtain rfl := fulfils.eq_num
    exact .pure prolongs₁.honours .num
  | @test y m limit _ makes lt =>
    refine (forces honours honours.laid.zero).bind ?_ (by omega)
    rintro v promises₁ store₁ prolongs₁ fulfils
    obtain rfl := fulfils.eq_value
    refine (forces prolongs₁.honours (makes.mono prolongs₁.grown (Nat.le_refl _))).bind ?_ (by omega)
    rintro w promises₂ store₂ prolongs₂ fulfils
    obtain rfl := fulfils.eq_num
    exact .pure prolongs₂.honours .value
  | @offer q truth limit _ makes lt =>
    refine (forces honours makes).bind ?_ (by omega)
    rintro v promises₁ store₁ prolongs₁ fulfils
    obtain rfl := fulfils.eq_value
    rw [boolean_eq]
    have itself : Fulfils promises₁ (.func (.binaryOn (selector truth) layout.start)) (.value _) 0 :=
      .value
    refine (delivers_value prolongs₁.honours itself).bind ?_ False.elim
    rintro w promises₂ store₂ prolongs₂ makes
    refine (forces prolongs₂.honours makes).mono ?_ fun shallow => ?_
    · exact fun _ _ _ fulfils => fulfils.mono (List.prefix_refl _) (Nat.zero_le _)
    · omega
  | call argument le => exact run_call forces honours argument le
  | choose chooses other lt => exact run_choose forces honours chooses other lt
  | next argument le => exact run_next forces honours argument le
  | again argument lt => exact run_again forces honours argument lt
  | @combine op y z m n limit _ first second lt =>
    refine (forces honours first).bind ?_ (by omega)
    rintro v promises₁ store₁ prolongs₁ fulfils
    obtain rfl := fulfils.eq_num
    refine (forces prolongs₁.honours (second.mono prolongs₁.grown (Nat.le_refl _))).bind ?_ (by omega)
    rintro w promises₂ store₂ prolongs₂ fulfils
    obtain rfl := fulfils.eq_num
    show Delivers layout promises₂ store₂
      (Eval.ofExcept ((op.binop.apply m n).mapError .fault)) _ _
    rw [op.apply_binop]
    exact .pure prolongs₂.honours .num

end Run

theorem forceCellWith_delivers {run : Suspension → Eval Value}
    (honours : Honours layout promises store) (makes : promises.Makes x promise limit)
    (runs : ∀ {s cost}, Pursues layout promises s promise cost →
      Delivers layout promises store (run s)
        (fun v promises' _ => Fulfils promises' v promise cost) (depth ≤ cost)) :
    Delivers layout promises store (forceCellWith run x)
      (fun v promises' _ => Fulfils promises' v promise limit) (depth ≤ limit) := by
  obtain ⟨cost, within, made⟩ := makes
  have inside := Labels.lt_length made
  have keeps := honours.cells x _ _ made
  unfold forceCellWith
  refine (Eval.ensures_bind _ _).mpr ((Eval.ensures_cell x).mpr ?_)
  cases held : store.cell x with
  | value v =>
    rw [held] at keeps
    exact ⟨promises, .refl honours, Fulfils.mono keeps (List.prefix_refl _) within⟩
  | suspended s =>
    rw [held] at keeps
    refine (runs keeps).bind ?_ fun shallow => Nat.le_trans shallow within
    rintro v promises₁ store₁ prolongs₁ fulfils
    have same := Labels.of_isPrefix prolongs₁.grown inside
    have there := prolongs₁.honours.has_iff.mpr
      (Nat.lt_of_lt_of_le inside prolongs₁.grown.length_le)
    have committed : Prolongs layout promises₁ promises₁ (store₁.commit x v) := by
      refine prolongs₁.honours.commit there fun promise' cost' made' => ?_
      rw [same, made] at made'
      cases made'
      exact fulfils
    exact ⟨promises₁, committed, fulfils.mono (List.prefix_refl _) within⟩

/-- **Forcing finds what a cell promised.** -/
theorem force_delivers (layout : Layout) (depth : Nat) :
    ForcesPromised layout depth (force depth) := by
  induction depth with
  | zero =>
    intro promises store x promise limit honours makes
    exact forceCellWith_delivers honours makes fun _ => .lack honours (Nat.zero_le _)
  | succ depth ih =>
    intro promises store x promise limit honours makes
    exact forceCellWith_delivers honours makes (run_delivers ih honours)

/-- The tree of a cell that promised data is found, given a depth to go beyond what it costs to force
the cell. -/
def FindsPromised (layout : Layout) (limit depth : Nat) (find : CellId → Eval Tree) : Prop :=
  ∀ {promises : Promises} {store : Store} {x : CellId} {d : Datum}, Honours layout promises store →
    promises.Makes x (.datum d) limit → limit + d.rank < depth →
    Delivers layout promises store (find x) (fun tree _ _ => tree = d.tree) False

/-- The tree of a spine that was promised, after the trees of earlier elements, which come the latest
first. -/
theorem materializeWith_delivers {d : Datum} {rounds : Nat} {find : CellId → Eval Tree}
    (finds : FindsPromised layout limit depth find) (reversed : List Tree)
    (honours : Honours layout promises store) (makes : promises.Makes x (.datum d) limit)
    (long : d.length < rounds) (deep : limit + d.rank < depth + 1) :
    Delivers layout promises store (materializeWith (force depth) find rounds reversed x)
      (fun tree _ _ => tree = Tree.prependAll reversed d.tree) False := by
  induction d generalizing rounds reversed promises store x with
  | num n =>
    obtain ⟨rounds, rfl⟩ := Nat.exists_eq_succ_of_ne_zero (Nat.ne_zero_of_lt long)
    simp only [Datum.rank] at deep
    refine (force_delivers layout depth honours makes).bind ?_ fun shallow => ?_
    · rintro v promises₁ store₁ prolongs₁ fulfils
      cases fulfils
      exact .pure prolongs₁.honours (prependAll_num reversed n).symm
    · omega
  | nil =>
    obtain ⟨rounds, rfl⟩ := Nat.exists_eq_succ_of_ne_zero (Nat.ne_zero_of_lt long)
    simp only [Datum.rank] at deep
    refine (force_delivers layout depth honours makes).bind ?_ fun shallow => ?_
    · rintro v promises₁ store₁ prolongs₁ fulfils
      cases fulfils
      refine .pure prolongs₁.honours ?_
      rw [Datum.tree, prependAll_list, List.append_nil]
    · omega
  | pair first second _ ihSecond =>
    obtain ⟨rounds, rfl⟩ := Nat.exists_eq_succ_of_ne_zero (Nat.ne_zero_of_lt long)
    simp only [Datum.length, Datum.rank] at long deep
    refine (force_delivers layout depth honours makes).bind ?_ fun shallow => ?_
    · rintro v promises₁ store₁ prolongs₁ fulfils
      cases fulfils with
      | pair head tail =>
        refine (finds prolongs₁.honours head (by omega)).bind ?_ False.elim
        rintro tree promises₂ store₂ prolongs₂ rfl
        exact ihSecond _ prolongs₂.honours (tail.mono prolongs₂.grown (Nat.le_refl _)) (by omega)
          (by omega)
    · omega

/-- **The tree of a cell that promised data** is found. -/
theorem materialize_delivers (layout : Layout) (limit depth : Nat) :
    FindsPromised layout limit depth (materialize depth) := by
  induction depth with
  | zero =>
    intro promises store x d honours makes deep
    omega
  | succ depth ih =>
    intro promises store x d honours makes deep
    have long := d.length_lt_rank
    exact materializeWith_delivers ih [] honours makes (by omega) deep

/-! ### Forcing other cells -/

/-- **Whatever the promises are, a later store keeps them.** -/
def Upholds (layout : Layout) (store later : Store) : Prop :=
  ∀ promises, Honours layout promises store → ∃ promises', Prolongs layout promises promises' later

instance : Std.Refl (Upholds layout) where
  refl _ promises honours := ⟨promises, .refl honours⟩

instance : Trans (Upholds layout) (Upholds layout) (Upholds layout) where
  trans first second promises honours := by
    obtain ⟨promises', prolongs⟩ := first promises honours
    obtain ⟨promises'', prolongs'⟩ := second promises' prolongs.honours
    exact ⟨promises'', prolongs.trans prolongs'⟩

/-- Adding cells without promises and leaving labels breaks none. -/
theorem upholds_allow (layout : Layout) : Allows (Upholds layout) where
  alloc _ _ promises honours := ⟨promises ++ [none], honours.alloc fun _ _ same => nomatch same⟩
  observe _ _ promises honours :=
    ⟨promises, List.prefix_refl promises, honours.length, honours.cells, honours.laid, honours.bound⟩

/-- **Forcing any cell breaks no promise.** -/
theorem force_upholds (layout : Layout) (depth : Nat) (x : CellId) :
    Respects (Upholds layout) (force depth x) := by
  refine force_respects (upholds_allow layout) ?_ depth x
  intro depth x s v store later held ran upholds promises honours
  cases made : promises.of x with
  | some label =>
    have forced := force_of_run held ran
    obtain ⟨promises', prolongs, -⟩ :=
      Eval.Ensures.ok (force_delivers layout (depth + 1) honours ⟨label.2, Nat.le_refl _, made⟩) forced
    exact ⟨promises', prolongs⟩
  | none =>
    -- A cell that promised nothing may be given any value.
    obtain ⟨promises', prolongs⟩ := upholds promises honours
    have inside := honours.has_iff.mp (Store.has_of_suspended held)
    have there := prolongs.honours.has_iff.mpr (Nat.lt_of_lt_of_le inside prolongs.grown.length_le)
    refine ⟨promises', prolongs.trans (prolongs.honours.commit there fun promise cost made' => ?_)⟩
    rw [Labels.of_isPrefix prolongs.grown inside, made] at made'
    cases made'

end ByNeed
