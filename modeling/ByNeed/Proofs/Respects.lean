/-
**Computations that respect a relation.**

A computation respects a relation of states if, wherever it starts and however it ends, it leads to a
related state. For a relation that is reflexive and transitive this goes from the parts of a
computation to the whole, without a word about the states in between.

* `Respects.bind`, `Respects.mapM`, `Respects.foldlM`: one computation after another;
* `Allows`: a relation of stores that adding a cell and leaving a label keep to;
* `apply_respects`, `parse_respects`: **applying and reading respect** such a relation;
* `run_respects`: running a suspension does so if forcing does, and so do traversals
  (`materialize_respects`, `eval_respects`);
* `force_respects`: **forcing does so**, if every value that is given to a cell does.
-/

import ByNeed.Proofs.Effect
import ByNeed.Proofs.Progress

namespace ByNeed

/-! ### One computation after another -/

section Respects

variable {ε σ α β : Type} {R : σ → σ → Prop}

/-- **Wherever the computation starts and however it ends, it leads to a related state.** -/
def Respects (R : σ → σ → Prop) (computation : EStateM ε σ α) : Prop :=
  ∀ s, Moves R computation s fun _ _ => True

/-- Changing the state as the relation says. -/
theorem Respects.change {change : σ → α × σ} (related : ∀ s, R s (change s).2) :
    Respects R (modifyGet change : EStateM ε σ α) := by
  intro s
  constructor
  · rintro a later ⟨⟩
    exact ⟨related s, trivial⟩
  · exact fun _ _ ended => nomatch ended

theorem Respects.imp {R' : σ → σ → Prop} {computation : EStateM ε σ α}
    (respects : Respects R computation) (weaker : ∀ s later, R s later → R' s later) :
    Respects R' computation :=
  fun s => (respects s).imp (weaker s)

section Refl

variable [Std.Refl R]

theorem Respects.pure (a : α) : Respects R (Pure.pure a : EStateM ε σ α) :=
  fun s => .pure (Std.Refl.refl s) trivial

theorem Respects.throw (failure : ε) : Respects R (MonadExcept.throw failure : EStateM ε σ α) :=
  fun s => .throw (Std.Refl.refl s)

theorem Respects.get : Respects R (MonadState.get : EStateM ε σ σ) := by
  have kept : Respects R (modifyGet fun s => (s, s) : EStateM ε σ σ) :=
    .change fun s => Std.Refl.refl s
  exact kept

end Refl

theorem Respects.bind [Trans R R R] {computation : EStateM ε σ α} {next : α → EStateM ε σ β}
    (first : Respects R computation) (rest : ∀ a, Respects R (next a)) :
    Respects R (computation >>= next) :=
  fun s => (first s).bind fun a later _ _ => rest a later

variable [Std.Refl R] [Trans R R R]

theorem Respects.mapM {f : α → EStateM ε σ β} (each : ∀ a, Respects R (f a)) (items : List α) :
    Respects R (items.mapM f) := by
  induction items with
  | nil => exact .pure []
  | cons item rest ih =>
    rw [List.mapM_cons]
    exact (each item).bind fun _ => ih.bind fun _ => .pure _

theorem Respects.forM {f : α → EStateM ε σ PUnit} (each : ∀ a, Respects R (f a)) (items : List α) :
    Respects R (items.forM f) := by
  induction items with
  | nil => exact .pure ()
  | cons item rest ih => exact (each item).bind fun _ => ih

theorem Respects.foldlM {f : β → α → EStateM ε σ β} (each : ∀ b a, Respects R (f b a))
    (items : List α) (start : β) : Respects R (items.foldlM f start) := by
  induction items generalizing start with
  | nil => exact .pure start
  | cons item rest ih =>
    rw [List.foldlM_cons]
    exact (each start item).bind ih

end Respects

/-! ### Computations on the store -/

section Store

variable {α : Type} {R : Store → Store → Prop} [Std.Refl R]

theorem fault_respects (reason : Fault) : Respects R (Eval.fault reason : Eval α) :=
  .throw _

theorem ofExcept_respects (result : Except Failure α) : Respects R (Eval.ofExcept result) := by
  cases result with
  | ok a => exact .pure a
  | error failure => exact .throw failure

theorem faultShowing_respects (reason : Int → Fault) (n : Int) :
    Respects R (Eval.faultShowing reason n : Eval α) := by
  unfold Eval.faultShowing
  split
  · exact fault_respects _
  · exact .throw _

omit [Std.Refl R] in
theorem outcome_respects {computation : Eval α} (respects : Respects R computation) :
    Respects R (Eval.outcome computation) := by
  intro store
  constructor
  · intro result later ended
    unfold Eval.outcome at ended
    cases middle : computation store with
    | ok a middle' =>
      rw [middle] at ended
      cases ended
      exact (respects store).ok a _ middle
    | error failure middle' =>
      rw [middle] at ended
      cases ended
      exact ⟨(respects store).error failure _ middle, trivial⟩
  · intro failure later ended
    unfold Eval.outcome at ended
    split at ended <;> cases ended

theorem cell_respects [Trans R R R] (x : CellId) : Respects R (Eval.cell x) :=
  Respects.get.bind fun _ => .pure _

theorem toInt_respects (operation : String) (v : Value) : Respects R (v.toInt operation) := by
  cases v with
  | num n => exact .pure n
  | _ => exact fault_respects _

theorem half_respects (side : Half) (v : Value) : Respects R (v.half side) := by
  unfold Value.half
  split
  · exact .pure _
  · exact .pure _
  · exact fault_respects _

theorem expectEnd_respects (tokens : List Token) : Respects R (Reader.expectEnd tokens) := by
  cases tokens with
  | nil => exact .pure ()
  | cons token rest => exact fault_respects _

end Store

/-- **A relation of stores that adding a cell and leaving a label keep to.** -/
structure Allows (R : Store → Store → Prop) : Prop where
  alloc : ∀ (store : Store) (c : Cell), R store (store.alloc c).2
  observe : ∀ (store : Store) (label : String), R store { store with trace := label :: store.trace }

section Allows

variable {R : Store → Store → Prop} [Std.Refl R] [Trans R R R] (allows : Allows R)

include allows

omit [Std.Refl R] [Trans R R R] in
theorem alloc_respects (c : Cell) : Respects R (Eval.alloc c) :=
  .change fun store => allows.alloc store c

omit [Std.Refl R] [Trans R R R] in
theorem value_respects (v : Value) : Respects R (Eval.value v) :=
  alloc_respects allows (.value v)

omit [Std.Refl R] [Trans R R R] in
theorem suspend_respects (s : Suspension) : Respects R (Eval.suspend s) :=
  alloc_respects allows (.suspended s)

/-! ### Applying -/

theorem takeHalf_respects (side : Half) (x : CellId) : Respects R (takeHalf side x) := by
  refine (cell_respects x).bind fun c => ?_
  cases c with
  | value v => exact half_respects side v
  | suspended s => exact suspend_respects allows _

theorem applyWith_respects {apply : CellId → CellId → Eval CellId}
    (applied : ∀ f x, Respects R (apply f x)) (v : Value) (x : CellId) :
    Respects R (v.applyWith apply x) := by
  rw [applyWith_eq_run]
  cases v.effect x with
  | answer y => exact .pure y
  | add c => exact alloc_respects allows c
  | take side y => exact takeHalf_respects allows side y
  | apply f y => exact applied f y
  | applyTwice f y z => exact (applied f y).bind fun g => applied g z
  | applyNested f g y => exact (applied g y).bind fun z => applied f z
  | refuse n => exact faultShowing_respects _ n

theorem applyCellWith_respects {applyValue : Value → CellId → Eval CellId}
    (applied : ∀ v x, Respects R (applyValue v x)) (f x : CellId) :
    Respects R (applyCellWith applyValue f x) := by
  refine (cell_respects f).bind fun c => ?_
  cases c with
  | suspended s => exact suspend_respects allows _
  | value v => exact applied v x

/-- **Applying respects the relation.** -/
theorem apply_respects (depth : Nat) (f x : CellId) : Respects R (apply depth f x) := by
  induction depth generalizing f x with
  | zero => exact applyCellWith_respects allows (fun _ _ => .throw _) f x
  | succ depth ih => exact applyCellWith_respects allows (applyWith_respects allows ih) f x

theorem applyAll_respects (depth : Nat) (f : CellId) (args : List CellId) :
    Respects R (applyAll depth f args) :=
  .foldlM (apply_respects allows depth) args f

/-! ### Forcing -/

section Force

variable {force : CellId → Eval Value} {apply : CellId → CellId → Eval CellId}
  (forced : ∀ x, Respects R (force x)) (applied : ∀ f x, Respects R (apply f x))

include forced in
omit allows in
theorem answerWith_respects (name : Option String) (question : CellId) :
    Respects R (answerWith force name question) := by
  refine (outcome_respects (forced question)).bind fun result => ?_
  split
  · exact .pure _
  · exact fault_respects _
  · exact .throw _

include applied in
theorem questionWith_respects (f : Func) : Respects R (questionWith apply f) := by
  refine (value_respects allows _).bind fun asked => (value_respects allows _).bind fun never => ?_
  refine (value_respects allows _).bind fun first => (value_respects allows _).bind fun second => ?_
  exact .foldlM applied _ asked

include forced applied

theorem isNilWith_respects (x : CellId) : Respects R (isNilWith force apply x) := by
  refine (forced x).bind fun v => ?_
  cases v with
  | nil => exact .pure _
  | pair head tail => exact .pure _
  | num n => exact fault_respects _
  | func f =>
    refine (questionWith_respects allows applied f).bind fun question => ?_
    refine (answerWith_respects forced f.name question).bind fun answer => ?_
    split
    · exact .pure _
    · split
      · exact .pure _
      · exact fault_respects _

theorem run_respects (s : Suspension) : Respects R (s.run force apply) := by
  cases s with
  | apply f x => exact (forced f).bind fun v => (applyWith_respects allows applied v x).bind forced
  | half side x => exact (forced x).bind fun v => (half_respects side v).bind forced
  | lookup table name =>
    refine Respects.get.bind fun store => ?_
    cases (store.table table).lookup name with
    | some x => exact forced x
    | none => exact fault_respects _
  | observe label x =>
    exact (Respects.change fun store => allows.observe store label).bind fun _ => forced x
  | monop op x => exact (forced x).bind fun v => (toInt_respects _ v).bind fun _ => .pure _
  | binop op x y =>
    refine (forced x).bind fun v => (toInt_respects _ v).bind fun m => ?_
    exact (forced y).bind fun w => (toInt_respects _ w).bind fun n => ofExcept_respects _
  | isNil x => exact (isNilWith_respects allows forced applied x).bind fun _ => .pure _
  | share a b c =>
    exact (applied a c).bind fun f => (applied b c).bind fun x => (applied f x).bind forced

end Force

/-- **Forcing respects the relation**, if a cell may be given the value that its suspension has
produced by a run that respects it. -/
theorem force_respects
    (committed : ∀ {depth : Nat} {x : CellId} {s : Suspension} {v : Value} {store later : Store},
      store.cell x = .suspended s → s.run (force depth) (apply depth) store = .ok v later →
        R store later → R store (later.commit x v))
    (depth : Nat) (x : CellId) : Respects R (force depth x) := by
  induction depth generalizing x with
  | zero =>
    refine (cell_respects x).bind fun c => ?_
    cases c with
    | value v => exact .pure v
    | suspended s => exact .throw _
  | succ depth ih =>
    intro store
    cases content : store.cell x with
    | value v =>
      have forced := force_of_value content (depth + 1)
      constructor
      · intro w later ended
        cases forced.symm.trans ended
        exact ⟨Std.Refl.refl store, trivial⟩
      · exact fun failure later ended => nomatch forced.symm.trans ended
    | suspended s =>
      have runs := run_respects allows ih (apply_respects allows depth) s store
      have forced := force_of_suspended content depth
      constructor
      · intro v last ended
        obtain ⟨w, later, ran, rest⟩ := bind_eq_ok (forced.symm.trans ended)
        cases rest
        exact ⟨committed content ran (runs.ok v later ran).1, trivial⟩
      · intro failure last ended
        rcases bind_eq_error (forced.symm.trans ended) with failed | ⟨w, later, -, rest⟩
        · exact runs.error failure last failed
        · cases rest

/-! ### Reading -/

theorem reference_respects (env : TableId) (name : String) :
    Respects R (Environment.reference env name) := by
  have lookup : Respects R (Environment.lookup env name) :=
    (Respects.get.bind fun _ => .pure _).bind fun _ => .pure _
  refine lookup.bind fun found => ?_
  cases found with
  | some x => exact .pure x
  | none => exact suspend_respects allows _

theorem settle_respects (depth : Nat) (pending : Reader.Pending) (x : CellId) :
    Respects R (Reader.settle depth pending x) := by
  induction pending generalizing x with
  | nil => exact .pure _
  | cons frame pending ih =>
    cases frame with
    | none => exact .pure _
    | some f => exact (apply_respects allows depth f x).bind ih

theorem readExpr_respects (depth : Nat) (env : TableId) (pending : Reader.Pending)
    (tokens : List Token) : Respects R (Reader.readExpr depth env pending tokens) := by
  have step : ∀ pending token, Respects R (Reader.step depth env pending token) := by
    intro pending token
    cases token with
    | ap => exact .pure _
    | number numeral =>
      refine (ofExcept_respects _).bind fun n => ?_
      exact (value_respects allows _).bind (settle_respects allows depth pending)
    | symbol name =>
      exact (reference_respects allows env name).bind (settle_respects allows depth pending)
  induction tokens generalizing pending with
  | nil => exact .pure _
  | cons token rest ih =>
    rw [Reader.readExpr]
    refine (outcome_respects (step pending token)).bind fun result => ?_
    split
    · exact .pure _
    · exact .pure _
    · exact ih _

theorem readFrom_respects (depth : Nat) (env : TableId) (pending : Reader.Pending)
    (stream : TokenStream) : Respects R (Reader.readFrom depth env pending stream) := by
  have read := readExpr_respects allows depth env pending stream.left
  rw [← Reader.readFrom_left] at read
  exact fun store => (read store).of_map

/-- **Reading respects the relation.** -/
theorem parse_respects (depth : Nat) (env : TableId) (code : String) :
    Respects R (Reader.parse depth env code) := by
  refine (readExpr_respects allows depth env [] (lex code)).bind fun read => ?_
  split
  · exact .throw _
  · exact (expectEnd_respects _).bind fun _ => .pure _

omit [Std.Refl R] in
theorem point_respects (m n : Int) : Respects R (Interpreter.point m n) :=
  (value_respects allows _).bind fun _ =>
    (value_respects allows _).bind fun _ => value_respects allows _

/-! ### Traversing -/

section Loops

variable {force : CellId → Eval Value} {find : CellId → Eval Tree}
  (forced : ∀ x, Respects R (force x))

include forced

omit allows in
theorem elementsWith_respects (rounds : Nat) (found : List CellId) (x : CellId) :
    Respects R (elementsWith force rounds found x) := by
  induction rounds generalizing found x with
  | zero => exact .throw _
  | succ rounds ih =>
    refine (forced x).bind fun v => ?_
    cases v with
    | nil => exact .pure _
    | pair head tail => exact ih _ tail
    | num n => exact faultShowing_respects _ n
    | func f => exact fault_respects _

omit allows in
theorem materializeWith_respects (finds : ∀ x, Respects R (find x)) (rounds : Nat)
    (reversed : List Tree) (x : CellId) :
    Respects R (materializeWith force find rounds reversed x) := by
  induction rounds generalizing reversed x with
  | zero => exact .throw _
  | succ rounds ih =>
    refine (forced x).bind fun v => ?_
    cases v with
    | num n => exact .pure _
    | nil => exact .pure _
    | pair head tail => exact (finds head).bind fun first => ih _ tail
    | func f => exact fault_respects _

end Loops

section Traversal

variable (forced : ∀ depth x, Respects R (force depth x))

include forced

theorem isNil_respects (depth : Nat) (x : CellId) : Respects R (isNil depth x) :=
  isNilWith_respects allows (forced depth) (apply_respects allows depth) x

omit allows in
theorem elements_respects (depth : Nat) (x : CellId) : Respects R (elements depth x) := by
  cases depth with
  | zero => exact .throw _
  | succ depth => exact elementsWith_respects (forced depth) (depth + 1) [] x

omit allows in
theorem materialize_respects (depth : Nat) (x : CellId) : Respects R (materialize depth x) := by
  induction depth generalizing x with
  | zero => exact .throw _
  | succ depth ih => exact materializeWith_respects (forced depth) ih (depth + 1) [] x

omit allows in
theorem render_respects (depth : Nat) (x : CellId) : Respects R (render depth x) := by
  refine (materialize_respects forced depth x).bind fun tree => ?_
  unfold showTree
  split
  · exact .pure _
  · exact .throw _

omit allows in
theorem sourceTokens_respects (depth : Nat) (x : CellId) :
    Respects R (sourceTokens depth x) := by
  induction depth generalizing x with
  | zero => exact .throw _
  | succ depth ih =>
    refine (forced depth x).bind fun v => ?_
    cases v with
    | num n =>
      show Respects R (if writable n then _ else _)
      split
      · exact .pure _
      · exact .throw _
    | nil => exact .pure _
    | pair head tail => exact (ih head).bind fun _ => (ih tail).bind fun _ => .pure _
    | func f => exact fault_respects _

theorem eval_respects (depth : Nat) (env : TableId) (code : String) :
    Respects R (Interpreter.eval depth env code) :=
  (parse_respects allows depth env code).bind (render_respects forced depth)

end Traversal

end Allows

end ByNeed
