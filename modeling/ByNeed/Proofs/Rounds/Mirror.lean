/-
**Runs that mirror each other.**

Two stores agree on the cells of a store from which both have come, and the second has some cells of
its own after these. The same computation, started in either, does the same things; only, a cell that
it adds stands further back in the second, behind the cells which that store has of its own. So the
two runs answer alike or fail alike, force the same number of cells, and the second leaves its own
cells as they are.

* `Store.shift`: where the cell of the first run stands in the second;
* `Mirrored`: **the second store is the first, shifted**, with cells of its own in between;
* `Mirrors`: two computations end alike, in mirrored stores;
* `apply_mirrors`, `force_mirrors`, `eval_mirrors`: **the same computation mirrors itself**.
-/

import ByNeed.Proofs.Rounds.Rehearsal

namespace ByNeed

/-! ### Shifted cells -/

/-- Where the cell of a run from `base` stands in a run from `other`: the cells of `base` are where
they were, and the others come after the cells of `other`. -/
def Store.shift (base other : Store) (x : CellId) : CellId :=
  ⟨if x.index < base.cells.size then x.index else x.index + (other.cells.size - base.cells.size)⟩

/-- A cell stands where another has been shifted to. -/
def Store.Shifts (base other : Store) (x x' : CellId) : Prop :=
  x' = base.shift other x

/-- **The second store is the first, shifted.** It has cells of its own in between, which are those of
`other`, and as many more forced cells as it started with. -/
structure Mirrored (base other store store' : Store) : Prop where
  le : base.cells.size ≤ other.cells.size
  has : base.cells.size ≤ store.cells.size
  size : store'.cells.size + base.cells.size = store.cells.size + other.cells.size
  cells : ∀ x, (store.cell x).Like (base.Shifts other) (store'.cell (base.shift other x))
  between : ∀ x, ¬ base.Has x → other.Has x → store'.cell x = other.cell x
  bound : ∀ table name,
    (store'.table table).lookup name = ((store.table table).lookup name).map (base.shift other)
  forced : store'.forced + base.forced = store.forced + other.forced

variable {base other store store' later later' : Store} {x y f : CellId} {c c' : Cell}
  {v v' : Value} {s s' : Suspension}

theorem shift_injective (base other : Store) {x y : CellId}
    (same : base.shift other x = base.shift other y) : x = y := by
  rcases x with ⟨i⟩
  rcases y with ⟨j⟩
  simp only [Store.shift, CellId.mk.injEq] at same ⊢
  split at same <;> split at same <;> omega

namespace Mirrored

theorem has_shift_iff (mirrored : Mirrored base other store store') :
    store'.Has (base.shift other x) ↔ store.Has x := by
  have le := mirrored.le
  have has := mirrored.has
  have size := mirrored.size
  simp only [Store.Has, Store.shift]
  split <;> omega

theorem shift_alloc (mirrored : Mirrored base other store store') (c c' : Cell) :
    (store'.alloc c').1 = base.shift other (store.alloc c).1 := by
  have le := mirrored.le
  have has := mirrored.has
  have size := mirrored.size
  have outside : ¬ (store.alloc c).1.index < base.cells.size := Nat.not_lt.mpr has
  rw [Store.shift, if_neg outside]
  simp only [Store.alloc, CellId.mk.injEq]
  omega

/-- No cell is shifted to where the second store has cells of its own. -/
theorem shift_ne (mirrored : Mirrored base other store store') (new : ¬ base.Has y)
    (own : other.Has y) (x : CellId) : y ≠ base.shift other x := by
  have le := mirrored.le
  rintro rfl
  simp only [Store.Has, Store.shift] at new own
  by_cases inside : x.index < base.cells.size
  · rw [if_pos inside] at new
    exact new inside
  · rw [if_neg inside] at own
    omega

/-- **A cell is added** to either store. -/
theorem alloc (mirrored : Mirrored base other store store')
    (like : c.Like (base.Shifts other) c') :
    Mirrored base other (store.alloc c).2 (store'.alloc c').2 where
  le := mirrored.le
  has := by
    have has := mirrored.has
    simp only [Store.alloc, Array.size_push]
    omega
  size := by
    have size := mirrored.size
    simp only [Store.alloc, Array.size_push]
    omega
  cells x := by
    rw [Store.cell_alloc, Store.cell_alloc, mirrored.shift_alloc c]
    by_cases same : x = (store.alloc c).1
    · rw [if_pos same, if_pos (congrArg _ same)]
      exact like
    · rw [if_neg same, if_neg fun same' => same (shift_injective base other same')]
      exact mirrored.cells x
  between x new own := by
    rw [Store.cell_alloc, mirrored.shift_alloc c, if_neg (mirrored.shift_ne new own _)]
    exact mirrored.between x new own
  bound := mirrored.bound
  forced := mirrored.forced

/-- **A cell and the one it is shifted to are given their values.** -/
theorem commit (mirrored : Mirrored base other store store') (there : store.Has x)
    (like : v.Like (base.Shifts other) v') :
    Mirrored base other (store.commit x v) (store'.commit (base.shift other x) v') := by
  have there' := mirrored.has_shift_iff.mpr there
  refine ⟨mirrored.le, by simpa [Store.commit] using mirrored.has,
    by simpa [Store.commit] using mirrored.size, ?_, ?_, mirrored.bound, ?_⟩
  · intro y
    rw [Store.cell_commit there, Store.cell_commit there']
    by_cases same : y = x
    · rw [if_pos same, if_pos (congrArg _ same)]
      exact .value like
    · rw [if_neg same, if_neg fun same' => same (shift_injective base other same')]
      exact mirrored.cells y
  · intro y new own
    rw [Store.cell_commit there', if_neg (mirrored.shift_ne new own x)]
    exact mirrored.between y new own
  · have forced := mirrored.forced
    simp only [Store.commit]
    omega

end Mirrored

/-! ### Computations that end alike -/

/-- Two computations have ended alike, in mirrored stores. -/
inductive EndsAlike {α : Type} (base other store : Store) (alike : α → α → Prop) :
    EStateM.Result Failure Store α → EStateM.Result Failure Store α → Prop
  | ok {a a' : α} {later later' : Store} : Mirrored base other later later' →
      store.cells.size ≤ later.cells.size → alike a a' →
      EndsAlike base other store alike (.ok a later) (.ok a' later')
  | error {failure : Failure} {later later' : Store} : Mirrored base other later later' →
      EndsAlike base other store alike (.error failure later) (.error failure later')

theorem EndsAlike.mono {α : Type} {alike : α → α → Prop} {r r' : EStateM.Result Failure Store α}
    (ends : EndsAlike base other later alike r r') (grown : store.cells.size ≤ later.cells.size) :
    EndsAlike base other store alike r r' := by
  cases ends with
  | ok mirrored grown' same => exact .ok mirrored (Nat.le_trans grown grown') same
  | error mirrored => exact .error mirrored

/-- **Two computations, started in two stores, end alike.** -/
def Mirrors {α : Type} (base other : Store) (computation computation' : Eval α)
    (store store' : Store) (alike : α → α → Prop) : Prop :=
  EndsAlike base other store alike (computation store) (computation' store')

namespace Mirrors

variable {α β : Type} {computation computation' : Eval α} {next next' : α → Eval β}
  {alike : α → α → Prop} {alike' : β → β → Prop}

theorem pure {a a' : α} (mirrored : Mirrored base other store store') (same : alike a a') :
    Mirrors base other (Pure.pure a) (Pure.pure a') store store' alike :=
  .ok mirrored (Nat.le_refl _) same

theorem throw {failure : Failure} (mirrored : Mirrored base other store store') :
    Mirrors base other (MonadExcept.throw failure : Eval α) (MonadExcept.throw failure) store store'
      alike :=
  .error mirrored

theorem bind (mirrors : Mirrors base other computation computation' store store' alike)
    (rest : ∀ a a' later later', Mirrored base other later later' →
      store.cells.size ≤ later.cells.size → alike a a' →
      Mirrors base other (next a) (next' a') later later' alike') :
    Mirrors base other (computation >>= next) (computation' >>= next') store store' alike' := by
  unfold Mirrors at mirrors
  cases ended : computation store with
  | ok a later =>
    cases ended' : computation' store' with
    | ok a' later' =>
      rw [ended, ended'] at mirrors
      obtain ⟨mirrored, grown, same⟩ := mirrors
      unfold Mirrors
      rw [bind_of_ok ended, bind_of_ok ended']
      exact (rest a a' later later' mirrored grown same).mono grown
    | error failure later' =>
      rw [ended, ended'] at mirrors
      cases mirrors
  | error failure later =>
    cases ended' : computation' store' with
    | ok a' later' =>
      rw [ended, ended'] at mirrors
      cases mirrors
    | error failure' later' =>
      rw [ended, ended'] at mirrors
      unfold Mirrors
      rw [bind_of_error ended, bind_of_error ended']
      cases mirrors with
      | error mirrored => exact .error mirrored

theorem congr {other' other'' : Eval α} (same : computation store = other' store)
    (same' : computation' store' = other'' store')
    (mirrors : Mirrors base other other' other'' store store' alike) :
    Mirrors base other computation computation' store store' alike := by
  unfold Mirrors
  rw [same, same']
  exact mirrors

/-- A cell is read, and the one it is shifted to. -/
theorem cell {next next' : Cell → Eval β} (mirrored : Mirrored base other store store') (x : CellId)
    (rest : ∀ c c', store.cell x = c → c.Like (base.Shifts other) c' →
      Mirrors base other (next c) (next' c') store store' alike') :
    Mirrors base other (Eval.cell x >>= next) (Eval.cell (base.shift other x) >>= next') store store'
      alike' :=
  rest _ _ rfl (mirrored.cells x)

theorem alloc (mirrored : Mirrored base other store store')
    (like : c.Like (base.Shifts other) c') :
    Mirrors base other (Eval.alloc c) (Eval.alloc c') store store' (base.Shifts other) :=
  .ok (mirrored.alloc like) (by simp) (mirrored.shift_alloc c c')

theorem fault {reason reason' : Fault} (mirrored : Mirrored base other store store')
    (same : reason = reason') :
    Mirrors base other (Eval.fault reason : Eval α) (Eval.fault reason') store store' alike := by
  subst same
  exact .error mirrored

theorem faultShowing (reason : Int → Fault) (n : Int)
    (mirrored : Mirrored base other store store') :
    Mirrors base other (Eval.faultShowing reason n : Eval α) (Eval.faultShowing reason n) store store'
      alike := by
  unfold Eval.faultShowing
  split
  · exact .error mirrored
  · exact .error mirrored

theorem ofExcept {result : Except Failure α} (mirrored : Mirrored base other store store')
    (same : ∀ a, result = .ok a → alike a a) :
    Mirrors base other (Eval.ofExcept result) (Eval.ofExcept result) store store' alike := by
  cases result with
  | ok a => exact .pure mirrored (same a rfl)
  | error failure => exact .throw mirrored

end Mirrors

/-! ### Applying -/

theorem Func.Like.name_eq {P : CellId → CellId → Prop} {g g' : Func} (like : g.Like P g') :
    g.name = g'.name := by
  cases like <;> rfl

theorem half_mirrors (side : Half) (mirrored : Mirrored base other store store')
    (like : v.Like (base.Shifts other) v') :
    Mirrors base other (v.half side) (v'.half side) store store' (base.Shifts other) := by
  cases like with
  | pair first second =>
    rw [half_pair, half_pair]
    refine .pure mirrored ?_
    cases side with
    | head => exact first
    | tail => exact second
  | num n => cases side <;> exact .error mirrored
  | nil => cases side <;> exact .error mirrored
  | func functions => cases side <;> exact .error mirrored

theorem takeHalf_mirrors (side : Half) (mirrored : Mirrored base other store store') (x : CellId) :
    Mirrors base other (takeHalf side x) (takeHalf side (base.shift other x)) store store'
      (base.Shifts other) := by
  refine .cell mirrored x fun c c' _ like => ?_
  cases like with
  | value like => exact half_mirrors side mirrored like
  | suspended like => exact .alloc mirrored (.suspended (.half side rfl))

/-- Applying mirrors itself. -/
def AppliesMirrored (base other : Store) (apply : CellId → CellId → Eval CellId) : Prop :=
  ∀ {store store' : Store} {f f' x x' : CellId}, Mirrored base other store store' →
    base.Shifts other f f' → base.Shifts other x x' →
    Mirrors base other (apply f x) (apply f' x') store store' (base.Shifts other)

/-- **Alike effects end alike.** -/
theorem effect_mirrors {apply : CellId → CellId → Eval CellId} {effect effect' : Effect}
    (applied : AppliesMirrored base other apply) (mirrored : Mirrored base other store store')
    (like : effect.Like (base.Shifts other) effect') :
    Mirrors base other (effect.run apply) (effect'.run apply) store store' (base.Shifts other) := by
  cases like with
  | answer same => exact .pure mirrored same
  | add like => exact .alloc mirrored like
  | take side same =>
    cases same
    exact takeHalf_mirrors side mirrored _
  | apply operator argument => exact applied mirrored operator argument
  | applyTwice operator first second =>
    exact (applied mirrored operator first).bind fun g g' later later' mirrored' _ same =>
      applied mirrored' same second
  | applyNested outer inner argument =>
    exact (applied mirrored inner argument).bind fun y y' later later' mirrored' _ same =>
      applied mirrored' outer same
  | refuse n => exact .faultShowing _ n mirrored

theorem applyCellWith_mirrors {applyValue : Value → CellId → Eval CellId} {f' x' : CellId}
    (mirrored : Mirrored base other store store') (operator : base.Shifts other f f')
    (argument : base.Shifts other x x')
    (applied : ∀ {v v'}, v.Like (base.Shifts other) v' →
      Mirrors base other (applyValue v x) (applyValue v' x') store store' (base.Shifts other)) :
    Mirrors base other (applyCellWith applyValue f x) (applyCellWith applyValue f' x') store store'
      (base.Shifts other) := by
  cases operator
  refine .cell mirrored f fun c c' _ like => ?_
  cases like with
  | suspended like => exact .alloc mirrored (.suspended (.apply rfl argument))
  | value like => exact applied like

/-- **Applying mirrors itself.** -/
theorem apply_mirrors (base other : Store) (depth : Nat) :
    AppliesMirrored base other (apply depth) := by
  induction depth with
  | zero =>
    intro store store' f f' x x' mirrored operator argument
    exact applyCellWith_mirrors mirrored operator argument fun _ => .throw mirrored
  | succ depth ih =>
    intro store store' f f' x x' mirrored operator argument
    refine applyCellWith_mirrors mirrored operator argument fun like => ?_
    rw [applyWith_eq_run, applyWith_eq_run]
    exact effect_mirrors ih mirrored (like.effect argument)

/-! ### Forcing -/

/-- Forcing mirrors itself. -/
def ForcesMirrored (base other : Store) (force : CellId → Eval Value) : Prop :=
  ∀ {store store' : Store} {x x' : CellId}, Mirrored base other store store' →
    base.Shifts other x x' →
    Mirrors base other (force x) (force x') store store' (Value.Like (base.Shifts other))

theorem toInt_mirrors (operation : String) (mirrored : Mirrored base other store store')
    (like : v.Like (base.Shifts other) v') :
    Mirrors base other (v.toInt operation) (v'.toInt operation) store store' Eq := by
  cases like with
  | num n => exact .pure mirrored rfl
  | nil => exact .error mirrored
  | pair first second => exact .error mirrored
  | func functions => exact .error mirrored

section Force

variable {force : CellId → Eval Value} {apply : CellId → CellId → Eval CellId}
  (forced : ForcesMirrored base other force) (applied : AppliesMirrored base other apply)

include applied in
theorem questionWith_mirrors {g g' : Func} (mirrored : Mirrored base other store store')
    (like : g.Like (base.Shifts other) g') :
    Mirrors base other (questionWith apply g) (questionWith apply g') store store'
      (base.Shifts other) := by
  refine (Mirrors.alloc mirrored (.value (.func like))).bind fun a a' _ _ mirrored _ asked => ?_
  refine (Mirrors.alloc mirrored (.value (.func (.binary _)))).bind
    fun b b' _ _ mirrored _ never => ?_
  refine (Mirrors.alloc mirrored (.value (.num _))).bind fun m m' _ _ mirrored _ mark => ?_
  refine (Mirrors.alloc mirrored (.value (.num _))).bind fun n n' _ _ mirrored _ mark' => ?_
  simp only [List.foldlM_cons, List.foldlM_nil, bind_pure]
  refine (applied mirrored asked never).bind fun h h' _ _ mirrored _ answered => ?_
  refine (applied mirrored answered mark).bind fun h h' _ _ mirrored _ answered => ?_
  exact applied mirrored answered mark'

include forced in
theorem answerWith_mirrors {name name' : Option String} {x' : CellId} (sameName : name = name')
    (mirrored : Mirrored base other store store') (same : base.Shifts other x x') :
    Mirrors base other (answerWith force name x) (answerWith force name' x') store store'
      (Value.Like (base.Shifts other)) := by
  subst sameName
  have mirrors := forced mirrored same
  unfold Mirrors at mirrors ⊢
  simp only [answerWith, bind, EStateM.bind, Eval.outcome]
  generalize force x store = r at mirrors ⊢
  generalize force x' store' = r' at mirrors ⊢
  cases mirrors with
  | ok mirrored grown like => exact .ok mirrored grown like
  | @error failure _ _ mirrored => cases failure <;> exact .error mirrored

include forced applied

theorem isNilWith_mirrors {x' : CellId} (mirrored : Mirrored base other store store')
    (same : base.Shifts other x x') :
    Mirrors base other (isNilWith force apply x) (isNilWith force apply x') store store' Eq := by
  refine (forced mirrored same).bind fun v v' _ _ mirrored _ like => ?_
  cases like with
  | nil => exact .pure mirrored rfl
  | pair first second => exact .pure mirrored rfl
  | num n => exact .error mirrored
  | @func g g' like =>
    refine (questionWith_mirrors applied mirrored like).bind fun q q' _ _ mirrored _ same => ?_
    refine (answerWith_mirrors forced like.name_eq mirrored same).bind
      fun answer answer' _ _ mirrored _ like' => ?_
    have nils : answer = .num nilMark ↔ answer' = .num nilMark := by cases like' <;> simp
    have pairs : answer = .num pairMark ↔ answer' = .num pairMark := by cases like' <;> simp
    by_cases likeNil : answer = .num nilMark
    · rw [if_pos likeNil, if_pos (nils.mp likeNil)]
      exact .pure mirrored rfl
    · rw [if_neg likeNil, if_neg fun same' => likeNil (nils.mpr same')]
      by_cases likePair : answer = .num pairMark
      · rw [if_pos likePair, if_pos (pairs.mp likePair)]
        exact .pure mirrored rfl
      · rw [if_neg likePair, if_neg fun same' => likePair (pairs.mpr same')]
        exact .fault mirrored (congrArg _ like.name_eq)

/-- **Alike suspensions end alike.** -/
theorem run_mirrors (mirrored : Mirrored base other store store')
    (like : s.Like (base.Shifts other) s') :
    Mirrors base other (s.run force apply) (s'.run force apply) store store'
      (Value.Like (base.Shifts other)) := by
  cases like with
  | apply operator argument =>
    refine (forced mirrored operator).bind fun g g' _ _ mirrored _ like => ?_
    rw [applyWith_eq_run, applyWith_eq_run]
    exact (effect_mirrors applied mirrored (like.effect argument)).bind
      fun r r' _ _ mirrored _ same => forced mirrored same
  | half side same =>
    refine (forced mirrored same).bind fun w w' _ _ mirrored _ like => ?_
    exact (half_mirrors side mirrored like).bind fun r r' _ _ mirrored _ same => forced mirrored same
  | lookup table name =>
    have bound := mirrored.bound table name
    refine .congr (run_lookup force apply table name store)
      (run_lookup force apply table name store') ?_
    rw [bound]
    cases (store.table table).lookup name with
    | some y => exact forced mirrored rfl
    | none => exact .error mirrored
  | observe label same =>
    have left : Mirrors base other (Eval.observe label) (Eval.observe label) store store'
        fun _ _ => True :=
      .ok ⟨mirrored.le, mirrored.has, mirrored.size, mirrored.cells, mirrored.between,
        mirrored.bound, mirrored.forced⟩ (Nat.le_refl _) trivial
    exact left.bind fun _ _ _ _ mirrored _ _ => forced mirrored same
  | monop op same =>
    refine (forced mirrored same).bind fun w w' _ _ mirrored _ like => ?_
    refine (toInt_mirrors op.name mirrored like).bind fun n n' _ _ mirrored _ same => ?_
    subst same
    exact .pure mirrored (.num _)
  | binop op first second =>
    refine (forced mirrored first).bind fun w w' _ _ mirrored _ like => ?_
    refine (toInt_mirrors op.name mirrored like).bind fun m m' _ _ mirrored _ same => ?_
    refine (forced mirrored second).bind fun w w' _ _ mirrored _ like => ?_
    refine (toInt_mirrors op.name mirrored like).bind fun n n' _ _ mirrored _ same' => ?_
    subst same same'
    refine .ofExcept mirrored fun v result => .of_cells_eq_nil ?_
    cases answered : op.apply m n with
    | error reason =>
      rw [answered] at result
      cases result
    | ok w =>
      rw [answered] at result
      cases result
      exact Binop.cells_of_apply answered
  | isNil same =>
    refine (isNilWith_mirrors forced applied mirrored same).bind
      fun truth truth' _ _ mirrored _ same => ?_
    subst same
    exact .pure mirrored (.boolean _)
  | share first second shared =>
    refine (applied mirrored first shared).bind fun f f' _ _ mirrored _ operator => ?_
    refine (applied mirrored second shared).bind fun y y' _ _ mirrored _ argument => ?_
    exact (applied mirrored operator argument).bind fun r r' _ _ mirrored _ same =>
      forced mirrored same

end Force

theorem forceCellWith_mirrors {run : Suspension → Eval Value} {x' : CellId}
    (mirrored : Mirrored base other store store') (same : base.Shifts other x x')
    (runs : ∀ {s s'}, s.Like (base.Shifts other) s' →
      Mirrors base other (run s) (run s') store store' (Value.Like (base.Shifts other))) :
    Mirrors base other (forceCellWith run x) (forceCellWith run x') store store'
      (Value.Like (base.Shifts other)) := by
  cases same
  refine .cell mirrored x fun c c' holds like => ?_
  cases like with
  | value like => exact .pure mirrored like
  | suspended like =>
    refine (runs like).bind fun v v' later later' mirrored grown like => ?_
    have there : later.Has x := Nat.lt_of_lt_of_le (Store.has_of_suspended holds) grown
    have committed : Mirrors base other (Eval.commit x v) (Eval.commit (base.shift other x) v') later
        later' fun _ _ => True :=
      .ok (mirrored.commit there like) (by simp [Store.commit]) trivial
    exact committed.bind fun _ _ _ _ mirrored _ _ => .pure mirrored like

/-- **Forcing mirrors itself.** -/
theorem force_mirrors (base other : Store) (depth : Nat) :
    ForcesMirrored base other (force depth) := by
  induction depth with
  | zero =>
    intro store store' x x' mirrored same
    exact forceCellWith_mirrors mirrored same fun _ => .throw mirrored
  | succ depth ih =>
    intro store store' x x' mirrored same
    exact forceCellWith_mirrors mirrored same
      (run_mirrors ih (apply_mirrors base other depth) mirrored)

/-! ### Evaluating -/

theorem build_mirrors (depth : Nat) (env : TableId) (e : Expression)
    (mirrored : Mirrored base other store store') :
    Mirrors base other (e.build depth env) (e.build depth env) store store' (base.Shifts other) := by
  induction e generalizing store store' with
  | number numeral =>
    have read : Mirrors base other (Eval.ofExcept numeral.read) (Eval.ofExcept numeral.read) store
        store' Eq := .ofExcept mirrored fun _ _ => rfl
    refine read.bind fun n n' _ _ mirrored _ same => ?_
    subst same
    exact .alloc mirrored (.value (.num _))
  | symbol name =>
    have bound := mirrored.bound env name
    cases found : (store.table env).lookup name with
    | some x =>
      rw [found] at bound
      refine .congr (reference_of_bound found) (reference_of_bound bound) ?_
      exact .pure mirrored rfl
    | none =>
      rw [found] at bound
      refine .congr (reference_of_unbound found) (reference_of_unbound bound) ?_
      exact .alloc mirrored (.suspended (.lookup env name))
  | ap operator operand ihOperator ihOperand =>
    refine (ihOperator mirrored).bind fun f f' _ _ mirrored _ same => ?_
    refine (ihOperand mirrored).bind fun x x' _ _ mirrored _ same' => ?_
    exact apply_mirrors base other depth mirrored same same'

/-- How to show all data of a cell mirrors itself. -/
def ShowsMirrored (base other : Store) (find : CellId → Eval Tree) : Prop :=
  ∀ {store store' : Store} {x x' : CellId}, Mirrored base other store store' →
    base.Shifts other x x' → Mirrors base other (find x) (find x') store store' Eq

theorem materializeWith_mirrors {x' : CellId} {find : CellId → Eval Tree}
    (shows : ShowsMirrored base other find) (depth rounds : Nat) (reversed : List Tree)
    (mirrored : Mirrored base other store store') (same : base.Shifts other x x') :
    Mirrors base other (materializeWith (force depth) find rounds reversed x)
      (materializeWith (force depth) find rounds reversed x') store store' Eq := by
  induction rounds generalizing reversed x x' store store' with
  | zero => exact .throw mirrored
  | succ rounds ih =>
    refine (force_mirrors base other depth mirrored same).bind fun v v' _ _ mirrored _ like => ?_
    cases like with
    | num n => exact .pure mirrored rfl
    | nil => exact .pure mirrored rfl
    | pair first second =>
      refine (shows mirrored first).bind fun tree tree' _ _ mirrored _ same => ?_
      subst same
      exact ih _ mirrored second
    | func functions => exact .error mirrored

theorem materialize_mirrors (base other : Store) (depth : Nat) :
    ShowsMirrored base other (materialize depth) := by
  induction depth with
  | zero =>
    intro store store' x x' mirrored same
    exact .throw mirrored
  | succ depth ih =>
    intro store store' x x' mirrored same
    exact materializeWith_mirrors ih depth (depth + 1) [] mirrored same

/-- **Evaluating an expression mirrors itself.** -/
theorem eval_mirrors {code : String} {e : Expression} (depth : Nat) (env : TableId)
    (listed : lex code = e.listing) (mirrored : Mirrored base other store store') :
    Mirrors base other (Interpreter.eval depth env code) (Interpreter.eval depth env code) store
      store' Eq := by
  have whole : lex code = (Phrase.whole e).tokens := listed
  unfold Interpreter.eval
  rw [Reader.parse_eq_build whole depth env]
  refine (build_mirrors depth env e mirrored).bind fun x x' _ _ mirrored _ same => ?_
  refine (materialize_mirrors base other depth mirrored same).bind
    fun tree tree' _ _ mirrored _ same => ?_
  subst same
  unfold showTree
  split
  · exact .pure mirrored rfl
  · exact .throw mirrored

/-! ### Where mirrored runs start and end -/

/-- **Runs from a store, and from one that goes beyond it, mirror each other.** -/
theorem Mirrored.start (represented : base.Represented) (extended : base.Extended other) :
    Mirrored base other base other := by
  have le := extended.le
  obtain ⟨defs, terms, represents⟩ := represented
  have stays : ∀ {y}, base.Has y → base.shift other y = y := fun {y} there =>
    congrArg CellId.mk (if_pos there)
  refine ⟨le, Nat.le_refl _, Nat.add_comm _ _, fun x => ?_, fun x _ _ => rfl, fun table name => ?_,
    Nat.add_comm _ _⟩
  · by_cases there : base.Has x
    · rw [stays there, extended.kept x there]
      refine .refl _ fun y member => (stays (represents.has_iff.mpr ?_)).symm
      have stands := represents.cells x there
      cases holds : base.cell x with
      | value v =>
        rw [holds] at stands member
        exact stands.1 y member
      | suspended s =>
        rw [holds] at stands member
        exact stands.1 y member
    · have outside : ¬ other.Has (base.shift other x) := by
        have new : ¬ x.index < base.cells.size := there
        rw [Store.Has, Store.shift, if_neg new]
        simp only
        omega
      rw [Store.cell_of_not_has there, Store.cell_of_not_has outside]
      exact .value .nil
  · rw [Store.table_congr extended.tables]
    cases found : (base.table table).lookup name with
    | none => rfl
    | some x =>
      rw [Option.map_some, stays (represents.bound table name x found).1]

/-- **Computations that end alike** have the same verdict, and mirrored stores after them. -/
theorem Mirrors.verdict_eq {α : Type} {computation computation' : Eval α}
    (mirrors : Mirrors base other computation computation' store store' Eq) :
    computation'.verdict store' = computation.verdict store ∧
      Mirrored base other (computation.after store) (computation'.after store') := by
  unfold Mirrors at mirrors
  unfold Eval.verdict Eval.after
  generalize computation store = r at mirrors ⊢
  generalize computation' store' = r' at mirrors ⊢
  cases mirrors with
  | ok mirrored _ same =>
    subst same
    exact ⟨rfl, mirrored⟩
  | error mirrored => exact ⟨rfl, mirrored⟩

end ByNeed
