/-
**A later run retraces the first.**

After a run that answered, the same expression is evaluated again. The later run finds values where
the first found suspensions, so it applies at once what the first suspended; and with another depth it
may fail where the first did not. But the cells that it forces take the places of cells that the first
run forced, so each is expected to come to the value found there, up to the cells that the value
refers to. No cell of the store that the first run left is suspended where a value is expected; so
none of them changes.

* `Expected`, `Expected.Plays`: the values that cells are expected to come to, and that a cell takes
  the place of another;
* `Retraced`: **the cells that were there are as they were, and what is expected of the others can be
  met**;
* `apply_retraces`: applying cells that take the places of others answers one that does;
* `force_retraces`: **forcing a cell meets what is expected of it**;
* `eval_retraces`: evaluating the same expression again changes no cell that was there.
-/

import ByNeed.Proofs.Labels
import ByNeed.Proofs.Respects
import ByNeed.Proofs.Rounds.Rehearsal

namespace ByNeed

/-! ### Expectations -/

/-- The values that the cells are expected to come to, in the order of the cells. -/
abbrev Expected := Labels Value

namespace Expected

variable {expected later : Expected} {x : CellId} {v : Value}

/-- **A cell takes the place of one that the first run met**: if this came to a value, so is the cell
expected to. -/
def Plays (notes : Notes) (expected : Expected) (x place : CellId) : Prop :=
  ∀ v, notes.learned place v → expected.of x = some v

theorem Plays.mono {notes : Notes} {place : CellId} (plays : expected.Plays notes x place)
    (grown : expected <+: later) : later.Plays notes x place :=
  fun v learned => Labels.of_mono (plays v learned) grown

/-- What a cell holds can meet what is expected of it. -/
inductive Meets (notes : Notes) (expected : Expected) (v : Value) : Cell → Prop
  | value {w : Value} : w.Like (expected.Plays notes) v → Meets notes expected v (.value w)
  | suspended {s s' : Suspension} : s'.Like (expected.Plays notes) s → notes.Ran s v →
      Meets notes expected v (.suspended s')

theorem Meets.mono {notes : Notes} {c : Cell} (meets : expected.Meets notes v c)
    (grown : expected <+: later) : later.Meets notes v c := by
  cases meets with
  | value like => exact .value (like.mono fun plays => plays.mono grown)
  | suspended like ran => exact .suspended (like.mono fun plays => plays.mono grown) ran

end Expected

/-! ### The later run -/

/-- **The cells that were there are as they were, and what is expected of the others can be met.** -/
structure Retraced (notes : Notes) (base : Store) (expected : Expected) (store : Store) : Prop where
  length : expected.length = store.cells.size
  extended : base.Extended store
  learned : ∀ x v, notes.learned x v → expected.of x = some v
  known : ∀ x v, base.Has x → expected.of x = some v → ∃ w, base.cell x = .value w
  cells : ∀ x v, expected.of x = some v → expected.Meets notes v (store.cell x)

/-- **The later run has gone further.** -/
structure Resumes (notes : Notes) (base : Store) (expected : Expected) (expected' : Expected)
    (later : Store) : Prop where
  grown : expected <+: expected'
  retraced : Retraced notes base expected' later

variable {notes : Notes} {base store later : Store} {expected expected' expected'' : Expected}
  {x x' f f' r : CellId} {c : Cell} {s s' : Suspension} {v w : Value}

theorem Resumes.refl (retraced : Retraced notes base expected store) :
    Resumes notes base expected expected store :=
  ⟨List.prefix_refl expected, retraced⟩

theorem Resumes.trans (first : Resumes notes base expected expected' store)
    (second : Resumes notes base expected' expected'' later) :
    Resumes notes base expected expected'' later :=
  ⟨first.grown.trans second.grown, second.retraced⟩

namespace Retraced

theorem has_iff (retraced : Retraced notes base expected store) :
    store.Has x ↔ x.index < expected.length := by
  rw [retraced.length]
  rfl

/-- A cell that was there takes its own place. -/
theorem plays_self (retraced : Retraced notes base expected store) (x : CellId) :
    expected.Plays notes x x :=
  fun v learned => retraced.learned x v learned

/-- **A cell is added**, of which nothing is expected or what it can meet. -/
theorem alloc {due : Option Value} (retraced : Retraced notes base expected store)
    (meets : ∀ v, due = some v → expected.Meets notes v c) :
    Resumes notes base expected (expected ++ [due]) (store.alloc c).2 := by
  have grown : expected <+: expected ++ [due] := List.prefix_append expected [due]
  have older : ∀ {y}, base.Has y → store.Has y := fun there =>
    Nat.lt_of_lt_of_le there retraced.extended.le
  refine ⟨grown, by simp [Store.alloc, retraced.length], ⟨?_, ?_, retraced.extended.tables⟩, ?_, ?_,
    ?_⟩
  · simpa [Store.alloc] using Nat.le_succ_of_le retraced.extended.le
  · intro y there
    rw [Store.cell_alloc_of_has (older there)]
    exact retraced.extended.kept y there
  · exact fun y v learned => Labels.of_mono (retraced.learned y v learned) grown
  · intro y v there due'
    rw [Labels.of_isPrefix grown (retraced.has_iff.mp (older there))] at due'
    exact retraced.known y v there due'
  · intro y v due'
    rcases Labels.of_append_cases retraced.length c due' with ⟨there, due'⟩ | ⟨rfl, same⟩
    · rw [Store.cell_alloc_of_has there]
      exact (retraced.cells y v due').mono grown
    · rw [Store.cell_alloc_self]
      exact (meets v same).mono grown

/-- **A suspended cell is given a value** that meets what is expected of it. -/
theorem commit (retraced : Retraced notes base expected store) (new : ¬ base.Has x)
    (there : store.Has x) (due : expected.of x = some v) (like : w.Like (expected.Plays notes) v) :
    Resumes notes base expected expected (store.commit x w) := by
  refine ⟨List.prefix_refl expected, by simp [Store.commit, retraced.length],
    ⟨by simpa [Store.commit] using retraced.extended.le, ?_, retraced.extended.tables⟩,
    retraced.learned, retraced.known, ?_⟩
  · intro y old
    have other : y ≠ x := by
      rintro rfl
      exact new old
    rw [Store.cell_commit there, if_neg other]
    exact retraced.extended.kept y old
  · intro y v' due'
    rw [Store.cell_commit there]
    by_cases same : y = x
    · rw [if_pos same]
      subst same
      rw [due] at due'
      cases due'
      exact .value like
    · rw [if_neg same]
      exact retraced.cells y v' due'

/-- A suspended cell of which a value is expected was not there before. -/
theorem new_of_suspended (retraced : Retraced notes base expected store)
    (due : expected.of x = some v) (suspended : store.cell x = .suspended s) : ¬ base.Has x := by
  intro old
  obtain ⟨w, holds⟩ := retraced.known x v old due
  rw [retraced.extended.kept x old, holds] at suspended
  cases suspended

end Retraced

/-- **However the computation ends, the later run has gone further**, and `good` holds of its
answer. -/
def Retraces {α : Type} (notes : Notes) (base : Store) (expected : Expected) (computation : Eval α)
    (store : Store) (good : Expected → α → Prop) : Prop :=
  computation.Ensures store
    (fun a later => ∃ expected', Resumes notes base expected expected' later ∧ good expected' a)
    fun _ later => ∃ expected', Resumes notes base expected expected' later

namespace Retraces

variable {α β : Type} {computation : Eval α} {next : α → Eval β} {good : Expected → α → Prop}
  {good' : Expected → β → Prop}

theorem pure {a : α} (retraced : Retraced notes base expected store) (holds : good expected a) :
    Retraces notes base expected (Pure.pure a) store good :=
  ⟨expected, .refl retraced, holds⟩

theorem throw {failure : Failure} (retraced : Retraced notes base expected store) :
    Retraces notes base expected (MonadExcept.throw failure : Eval α) store good :=
  ⟨expected, .refl retraced⟩

theorem bind (retraces : Retraces notes base expected computation store good)
    (rest : ∀ a expected' later, Resumes notes base expected expected' later → good expected' a →
      Retraces notes base expected' (next a) later good') :
    Retraces notes base expected (computation >>= next) store good' := by
  refine Eval.Ensures.bind retraces ?_ fun _ _ resumes => resumes
  rintro a later ⟨expected', resumes, holds⟩
  refine (rest a expected' later resumes holds).mono ?_ ?_
  · rintro b last ⟨expected'', resumes', holds'⟩
    exact ⟨expected'', resumes.trans resumes', holds'⟩
  · rintro failure last ⟨expected'', resumes'⟩
    exact ⟨expected'', resumes.trans resumes'⟩

theorem mono {better : Expected → α → Prop}
    (retraces : Retraces notes base expected computation store better)
    (weaker : ∀ a expected' later, Resumes notes base expected expected' later →
      better expected' a → good expected' a) :
    Retraces notes base expected computation store good := by
  refine Eval.Ensures.mono retraces ?_ fun _ _ resumes => resumes
  rintro a later ⟨expected', resumes, holds⟩
  exact ⟨expected', resumes, weaker a expected' later resumes holds⟩

theorem congr {other : Eval α} (same : computation store = other store)
    (retraces : Retraces notes base expected other store good) :
    Retraces notes base expected computation store good :=
  (Eval.ensures_congr same).mpr retraces

theorem cell {next : Cell → Eval β}
    (rest : Retraces notes base expected (next (store.cell x)) store good') :
    Retraces notes base expected (Eval.cell x >>= next) store good' :=
  (Eval.ensures_bind (Eval.cell x) next).mpr rest

/-- A cell is added that comes to a value. -/
theorem alloc (retraced : Retraced notes base expected store) (meets : expected.Meets notes v c) :
    Retraces notes base expected (Eval.alloc c) store fun expected' x => expected'.of x = some v := by
  refine ⟨expected ++ [some v], retraced.alloc fun w same => ?_, Labels.of_alloc retraced.length c _⟩
  cases same
  exact meets

end Retraces

/-! ### Cells that the first run did not force -/

/-- Whatever is expected, the later run goes further. -/
def Onward (notes : Notes) (base : Store) (store later : Store) : Prop :=
  ∀ expected, Retraced notes base expected store →
    ∃ expected', Resumes notes base expected expected' later

instance : Std.Refl (Onward notes base) where
  refl _ expected retraced := ⟨expected, .refl retraced⟩

instance : Trans (Onward notes base) (Onward notes base) (Onward notes base) where
  trans first second expected retraced := by
    obtain ⟨expected', resumes⟩ := first expected retraced
    obtain ⟨expected'', resumes'⟩ := second expected' resumes.retraced
    exact ⟨expected'', resumes.trans resumes'⟩

/-- Cells of which nothing is expected may be added. -/
theorem onward_allows (notes : Notes) (base : Store) : Allows (Onward notes base) where
  alloc _ _ expected retraced :=
    ⟨expected ++ [none], retraced.alloc fun _ same => nomatch same⟩
  observe _ _ expected retraced :=
    ⟨expected, List.prefix_refl expected, retraced.length,
      ⟨retraced.extended.le, retraced.extended.kept, retraced.extended.tables⟩, retraced.learned,
      retraced.known, retraced.cells⟩

/-- The answer takes the place of a cell if it does so provided that this came to a value. -/
theorem Retraces.of_learned {computation : Eval CellId} (accounts : notes.Accounts base)
    (retraced : Retraced notes base expected store)
    (respects : Respects (Onward notes base) computation)
    (retraces : ∀ v, notes.learned r v →
      Retraces notes base expected computation store fun expected' y => expected'.of y = some v) :
    Retraces notes base expected computation store fun expected' y => expected'.Plays notes y r := by
  by_cases came : ∃ v, notes.learned r v
  · obtain ⟨v, learned⟩ := came
    refine (retraces v learned).mono fun y expected' later _ due w learned' => ?_
    have same : Cell.value v = .value w :=
      ((accounts.learned_iff r v).mp learned).2.symm.trans ((accounts.learned_iff r w).mp learned').2
    cases same
    exact due
  · refine (Eval.ensures_iff computation).mpr ⟨fun y later ended => ?_, fun failure later ended => ?_⟩
    · obtain ⟨expected', resumes⟩ := ((respects store).ok y later ended).1 expected retraced
      exact ⟨expected', resumes, fun v learned => (came ⟨v, learned⟩).elim⟩
    · exact (respects store).error failure later ended expected retraced

/-! ### Applying -/

/-- A cell that is like one that the first run added takes its place. -/
theorem alloc_retraces {c' : Cell} (accounts : notes.Accounts base)
    (retraced : Retraced notes base expected store) (like : c'.Like (expected.Plays notes) c)
    (added : notes.added r c) :
    Retraces notes base expected (Eval.alloc c') store fun expected' y =>
      expected'.Plays notes y r := by
  refine .of_learned accounts retraced
    (.change fun store => (onward_allows notes base).alloc store c') fun v learned => ?_
  cases like with
  | value like =>
    cases accounts.given r _ v added learned
    exact .alloc retraced (.value like)
  | suspended like => exact .alloc retraced (.suspended like (accounts.ran r _ v added learned))

theorem takeHalf_retraces {side : Half} (accounts : notes.Accounts base)
    (retraced : Retraced notes base expected store) (plays : expected.Plays notes x' x)
    (acted : notes.Acted (.take side x) r) :
    Retraces notes base expected (takeHalf side x') store fun expected' y =>
      expected'.Plays notes y r := by
  refine .of_learned accounts retraced (takeHalf_respects (onward_allows notes base) side x')
    fun v learned => ?_
  have ran := accounts.ran_half acted learned
  obtain ⟨head, tail, whole, part⟩ : ∃ head tail, notes.learned x (.pair head tail) ∧
      notes.learned (side.of head tail) v := by
    cases ran with
    | half whole part => exact ⟨_, _, whole, part⟩
  have meets := retraced.cells x' _ (plays _ whole)
  refine .cell ?_
  cases holds : store.cell x' with
  | suspended s => exact .alloc retraced (.suspended (.half side plays) ran)
  | value w =>
    rw [holds] at meets
    cases meets with
    | value like =>
      cases like with
      | pair first second =>
        show Retraces notes base expected (Value.half side (.pair _ _)) store _
        rw [half_pair]
        refine .pure retraced ?_
        cases side with
        | head => exact first v part
        | tail => exact second v part

/-- Applying cells that take the places of others answers a cell that takes the place of theirs. -/
def AppliesAlike (notes : Notes) (base : Store) (apply : CellId → CellId → Eval CellId) : Prop :=
  ∀ {expected : Expected} {store : Store} {f f' x x' r : CellId},
    Retraced notes base expected store → expected.Plays notes f' f → expected.Plays notes x' x →
    notes.Acted (.apply f x) r →
    Retraces notes base expected (apply f' x') store fun expected' y => expected'.Plays notes y r

/-- **Alike effects answer cells that take each other's places.** -/
theorem effect_retraces {apply : CellId → CellId → Eval CellId} {effect effect' : Effect}
    (accounts : notes.Accounts base) (applied : AppliesAlike notes base apply)
    (retraced : Retraced notes base expected store)
    (like : effect'.Like (expected.Plays notes) effect) (acted : notes.Acted effect r) :
    Retraces notes base expected (effect'.run apply) store fun expected' y =>
      expected'.Plays notes y r := by
  cases like with
  | answer plays =>
    cases acted with
    | answer => exact .pure retraced plays
  | add like =>
    cases acted with
    | add added => exact alloc_retraces accounts retraced like added
  | take side plays => exact takeHalf_retraces accounts retraced plays acted
  | apply operator argument => exact applied retraced operator argument acted
  | applyTwice operator first second =>
    cases acted with
    | applyTwice acted acted' =>
      refine (applied retraced operator first acted).bind fun g expected' later resumes plays => ?_
      exact applied resumes.retraced plays (second.mono resumes.grown) acted'
  | applyNested outer inner argument =>
    cases acted with
    | applyNested acted acted' =>
      refine (applied retraced inner argument acted).bind fun y expected' later resumes plays => ?_
      exact applied resumes.retraced (outer.mono resumes.grown) plays acted'
  | refuse n => cases acted

theorem applyCellWith_retraces {applyValue : Value → CellId → Eval CellId}
    (accounts : notes.Accounts base) (retraced : Retraced notes base expected store)
    (operator : expected.Plays notes f' f) (argument : expected.Plays notes x' x)
    (acted : notes.Acted (.apply f x) r)
    (respects : Respects (Onward notes base) (applyCellWith applyValue f' x'))
    (applied : ∀ {v w r}, w.Like (expected.Plays notes) v → notes.Acted (v.effect x) r →
      Retraces notes base expected (applyValue w x') store fun expected' y =>
        expected'.Plays notes y r) :
    Retraces notes base expected (applyCellWith applyValue f' x') store fun expected' y =>
      expected'.Plays notes y r := by
  refine .of_learned accounts retraced respects fun v learned => ?_
  -- Whether the first run applied at once or later, what it would have run says what comes of it.
  have ran := accounts.ran_apply acted learned
  obtain ⟨g, r', known, acted', result⟩ : ∃ g r', notes.learned f g ∧ notes.Acted (g.effect x) r' ∧
      notes.learned r' v := by
    cases ran with
    | apply known acted' result => exact ⟨_, _, known, acted', result⟩
  have meets := retraced.cells f' _ (operator _ known)
  refine .cell ?_
  cases holds : store.cell f' with
  | suspended s => exact .alloc retraced (.suspended (.apply operator argument) ran)
  | value w =>
    rw [holds] at meets
    cases meets with
    | value like =>
      exact (applied like acted').mono fun y expected' later resumes plays => plays v result

/-- **Applying cells that take the places of others.** -/
theorem apply_retraces (accounts : notes.Accounts base) (depth : Nat) :
    AppliesAlike notes base (apply depth) := by
  have respects := apply_respects (onward_allows notes base)
  induction depth with
  | zero =>
    intro expected store f f' x x' r retraced operator argument acted
    exact applyCellWith_retraces accounts retraced operator argument acted (respects 0 f' x')
      fun _ _ => .throw retraced
  | succ depth ih =>
    intro expected store f f' x x' r retraced operator argument acted
    refine applyCellWith_retraces accounts retraced operator argument acted
      (respects (depth + 1) f' x') fun {v w r} like acted => ?_
    rw [applyWith_eq_run]
    exact effect_retraces accounts ih retraced (like.effect argument) acted

/-! ### Forcing -/

/-- Forcing a cell meets what is expected of it. -/
def ForcesAlike (notes : Notes) (base : Store) (force : CellId → Eval Value) : Prop :=
  ∀ {expected : Expected} {store : Store} {x : CellId} {v : Value},
    Retraced notes base expected store → expected.of x = some v →
    Retraces notes base expected (force x) store fun expected' w => w.Like (expected'.Plays notes) v

theorem Value.Like.eq_num {P : CellId → CellId → Prop} {n : Int} (like : v.Like P (.num n)) :
    v = .num n := by
  cases like
  rfl

section Force

variable {force : CellId → Eval Value} {apply : CellId → CellId → Eval CellId}
  (accounts : notes.Accounts base) (forced : ForcesAlike notes base force)
  (applied : AppliesAlike notes base apply)

include accounts applied in
theorem questionWith_retraces {function function' : Func}
    (retraced : Retraced notes base expected store)
    (like : function'.Like (expected.Plays notes) function)
    (questioned : notes.Questioned function r) :
    Retraces notes base expected (questionWith apply function') store fun expected' y =>
      expected'.Plays notes y r := by
  obtain ⟨asked, never, mark, mark', acted, acted', acted''⟩ := questioned
  refine (alloc_retraces accounts retraced (.value (.func like)) asked).bind
    fun a expected₁ store₁ resumes₁ playsA => ?_
  refine (alloc_retraces accounts resumes₁.retraced (.value (.func (.binary _))) never).bind
    fun b expected₂ store₂ resumes₂ playsB => ?_
  refine (alloc_retraces accounts resumes₂.retraced (.value (.num _)) mark).bind
    fun m expected₃ store₃ resumes₃ playsM => ?_
  refine (alloc_retraces accounts resumes₃.retraced (.value (.num _)) mark').bind
    fun n expected₄ store₄ resumes₄ playsN => ?_
  simp only [List.foldlM_cons, List.foldlM_nil, bind_pure]
  have playsM := playsM.mono resumes₄.grown
  have playsB := playsB.mono (resumes₃.trans resumes₄).grown
  have playsA := playsA.mono (resumes₂.trans (resumes₃.trans resumes₄)).grown
  refine (applied resumes₄.retraced playsA playsB acted).bind
    fun g expected₅ store₅ resumes₅ playsG => ?_
  refine (applied resumes₅.retraced playsG (playsM.mono resumes₅.grown) acted').bind
    fun h expected₆ store₆ resumes₆ playsH => ?_
  exact applied resumes₆.retraced playsH (playsN.mono (resumes₅.trans resumes₆).grown) acted''

include forced in
theorem answerWith_retraces (name : Option String) (retraced : Retraced notes base expected store)
    (due : expected.of x = some v) :
    Retraces notes base expected (answerWith force name x) store fun expected' w =>
      w.Like (expected'.Plays notes) v := by
  unfold answerWith Retraces
  rw [Eval.ensures_bind, Eval.ensures_outcome]
  refine Eval.Ensures.mono (forced retraced due) (fun w later met => met) fun failure later met => ?_
  cases failure <;> exact met

include accounts forced applied

theorem isNilWith_retraces {truth : Bool} (retraced : Retraced notes base expected store)
    (plays : expected.Plays notes x' x) (asked : notes.Asked x truth) :
    Retraces notes base expected (isNilWith force apply x') store fun _ truth' => truth' = truth := by
  cases asked with
  | nil learned =>
    refine (forced retraced (plays _ learned)).bind fun w expected' later resumes like => ?_
    cases like with
    | nil => exact .pure resumes.retraced rfl
  | pair learned =>
    refine (forced retraced (plays _ learned)).bind fun w expected' later resumes like => ?_
    cases like with
    | pair first second => exact .pure resumes.retraced rfl
  | func learned questioned answer =>
    refine (forced retraced (plays _ learned)).bind fun w expected₁ store₁ resumes₁ like => ?_
    cases like with
    | @func function' _ like =>
      refine (questionWith_retraces accounts applied resumes₁.retraced like questioned).bind
        fun question expected₂ store₂ resumes₂ playsQ => ?_
      refine (answerWith_retraces forced function'.name resumes₂.retraced (playsQ _ answer)).bind
        fun w expected₃ store₃ resumes₃ like => ?_
      rw [like.eq_num]
      cases truth with
      | true => exact .pure resumes₃.retraced rfl
      | false => exact .pure resumes₃.retraced rfl

/-- **Running a suspension like one that the first run ran** comes to a value like its value. -/
theorem run_retraces (retraced : Retraced notes base expected store)
    (like : s'.Like (expected.Plays notes) s) (ran : notes.Ran s v) :
    Retraces notes base expected (s'.run force apply) store fun expected' w =>
      w.Like (expected'.Plays notes) v := by
  cases like with
  | apply operator argument =>
    cases ran with
    | apply known acted result =>
      refine (forced retraced (operator _ known)).bind fun g expected₁ store₁ resumes₁ like => ?_
      rw [applyWith_eq_run]
      refine (effect_retraces accounts applied resumes₁.retraced
        (like.effect (argument.mono resumes₁.grown)) acted).bind
        fun y expected₂ store₂ resumes₂ plays => ?_
      exact forced resumes₂.retraced (plays v result)
  | half side plays =>
    cases ran with
    | half whole part =>
      refine (forced retraced (plays _ whole)).bind fun w expected₁ store₁ resumes₁ like => ?_
      cases like with
      | pair first second =>
        rw [half_pair]
        refine forced resumes₁.retraced ?_
        cases side with
        | head => exact first v part
        | tail => exact second v part
  | lookup table name =>
    cases ran with
    | @lookup _ _ y _ bound result =>
      have found : (store.table table).lookup name = some y := by
        rw [Store.table_congr retraced.extended.tables]
        exact (accounts.bound_iff table name y).mp bound
      refine .congr (run_lookup force apply table name store) ?_
      rw [found]
      exact forced retraced (retraced.learned y v result)
  | observe label plays =>
    cases ran with
    | observe result =>
      obtain ⟨expected', resumes⟩ := (onward_allows notes base).observe store label expected retraced
      have left : Retraces notes base expected (Eval.observe label) store fun expected' _ =>
          expected <+: expected' := ⟨expected', resumes, resumes.grown⟩
      refine left.bind fun _ expected' later resumes _ => ?_
      exact forced resumes.retraced (plays.mono resumes.grown v result)
  | monop op plays =>
    cases ran with
    | monop operand =>
      refine (forced retraced (plays _ operand)).bind fun w expected' later resumes like => ?_
      rw [like.eq_num]
      exact .pure resumes.retraced (.num _)
  | binop op plays plays' =>
    cases ran with
    | binop first second result =>
      refine (forced retraced (plays _ first)).bind fun w expected₁ store₁ resumes₁ like => ?_
      rw [like.eq_num]
      refine (forced resumes₁.retraced (plays'.mono resumes₁.grown _ second)).bind
        fun w expected₂ store₂ resumes₂ like => ?_
      rw [like.eq_num]
      show Retraces notes base expected₂ (Eval.ofExcept ((op.apply _ _).mapError .fault)) store₂ _
      rw [result]
      exact .pure resumes₂.retraced (.of_cells_eq_nil (Binop.cells_of_apply result))
  | isNil plays =>
    cases ran with
    | isNil asked =>
      refine (isNilWith_retraces accounts forced applied retraced plays asked).bind
        fun truth expected' later resumes same => ?_
      rw [same]
      exact .pure resumes.retraced (.boolean _)
  | share first second shared =>
    cases ran with
    | share acted₁ acted₂ acted₃ result =>
      refine (applied retraced first shared acted₁).bind fun f expected₁ store₁ resumes₁ playsF => ?_
      refine (applied resumes₁.retraced (second.mono resumes₁.grown) (shared.mono resumes₁.grown)
        acted₂).bind fun y expected₂ store₂ resumes₂ playsY => ?_
      refine (applied resumes₂.retraced (playsF.mono resumes₂.grown) playsY acted₃).bind
        fun z expected₃ store₃ resumes₃ playsZ => ?_
      exact forced resumes₃.retraced (playsZ v result)

end Force

theorem forceCellWith_retraces {run : Suspension → Eval Value}
    (retraced : Retraced notes base expected store) (due : expected.of x = some v)
    (runs : ∀ {s s'}, s'.Like (expected.Plays notes) s → notes.Ran s v →
      Retraces notes base expected (run s') store fun expected' w =>
        w.Like (expected'.Plays notes) v) :
    Retraces notes base expected (forceCellWith run x) store fun expected' w =>
      w.Like (expected'.Plays notes) v := by
  have meets := retraced.cells x v due
  refine .cell ?_
  cases holds : store.cell x with
  | value w =>
    rw [holds] at meets
    cases meets with
    | value like => exact .pure retraced like
  | suspended s' =>
    rw [holds] at meets
    cases meets with
    | suspended like ran =>
      refine (runs like ran).bind fun w expected' later resumes like => ?_
      have due' := Labels.of_mono due resumes.grown
      have there : later.Has x :=
        resumes.retraced.has_iff.mpr (Labels.lt_length due')
      exact ⟨expected', resumes.retraced.commit (retraced.new_of_suspended due holds) there due' like,
        like⟩

/-- **Forcing a cell meets what is expected of it.** -/
theorem force_retraces (accounts : notes.Accounts base) (depth : Nat) :
    ForcesAlike notes base (force depth) := by
  induction depth with
  | zero =>
    intro expected store x v retraced due
    exact forceCellWith_retraces retraced due fun _ _ => .throw retraced
  | succ depth ih =>
    intro expected store x v retraced due
    exact forceCellWith_retraces retraced due
      (run_retraces accounts ih (apply_retraces accounts depth) retraced)

/-! ### Evaluating -/

theorem build_retraces {env : TableId} {e : Expression} (accounts : notes.Accounts base) (depth : Nat)
    (retraced : Retraced notes base expected store) (composed : notes.Composed env e x) :
    Retraces notes base expected (e.build depth env) store fun expected' y =>
      expected'.Plays notes y x := by
  induction composed generalizing expected store with
  | @number numeral x added =>
    rw [Expression.build, Numeral.read]
    split
    · exact alloc_retraces accounts retraced (.value (.num _)) added
    · exact .throw retraced
  | @bound name x bound =>
    have found : (store.table env).lookup name = some x := by
      rw [Store.table_congr retraced.extended.tables]
      exact (accounts.bound_iff env name x).mp bound
    refine .congr (reference_of_bound found) ?_
    exact .pure retraced (retraced.plays_self x)
  | @unbound name x added =>
    cases found : (store.table env).lookup name with
    | none =>
      refine .congr (reference_of_unbound found) ?_
      exact alloc_retraces accounts retraced (.suspended (.lookup env name)) added
    | some y =>
      refine .congr (reference_of_bound found) ?_
      refine .pure retraced fun v learned => ?_
      cases accounts.ran x _ v added learned with
      | @lookup _ _ z _ bound result =>
        have same : (base.table env).lookup name = some y := by
          rwa [Store.table_congr retraced.extended.tables] at found
        rw [(accounts.bound_iff env name z).mp bound] at same
        cases same
        exact retraced.learned y v result
  | ap _ _ acted ih ih' =>
    refine (ih retraced).bind fun f expected₁ store₁ resumes₁ playsF => ?_
    refine (ih' resumes₁.retraced).bind fun y expected₂ store₂ resumes₂ playsY => ?_
    exact apply_retraces accounts depth resumes₂.retraced (playsF.mono resumes₂.grown) playsY acted

/-- How to show all data of a cell retraces how it was shown. -/
def ShowsAlike (notes : Notes) (base : Store) (find : CellId → Eval Tree) : Prop :=
  ∀ {expected : Expected} {store : Store} {x x' : CellId}, Retraced notes base expected store →
    expected.Plays notes x' x → notes.Materialized x →
    Retraces notes base expected (find x') store fun _ _ => True

theorem materializeWith_retraces {find : CellId → Eval Tree} (accounts : notes.Accounts base)
    (shows : ShowsAlike notes base find) (depth rounds : Nat) (reversed : List Tree)
    (retraced : Retraced notes base expected store) (plays : expected.Plays notes x' x)
    (seen : notes.Materialized x) :
    Retraces notes base expected (materializeWith (force depth) find rounds reversed x') store
      fun _ _ => True := by
  induction rounds generalizing reversed expected store x x' with
  | zero => exact .throw retraced
  | succ rounds ih =>
    have forced : ForcesAlike notes base (force depth) := force_retraces accounts depth
    cases seen with
    | num learned =>
      refine (forced retraced (plays _ learned)).bind fun w expected' later resumes like => ?_
      rw [like.eq_num]
      exact .pure resumes.retraced trivial
    | nil learned =>
      refine (forced retraced (plays _ learned)).bind fun w expected' later resumes like => ?_
      cases like with
      | nil => exact .pure resumes.retraced trivial
    | pair learned seen seen' =>
      refine (forced retraced (plays _ learned)).bind fun w expected₁ store₁ resumes₁ like => ?_
      cases like with
      | pair first second =>
        refine (shows resumes₁.retraced first seen).bind fun tree expected₂ store₂ resumes₂ _ => ?_
        exact ih _ resumes₂.retraced (second.mono resumes₂.grown) seen'

theorem materialize_retraces (accounts : notes.Accounts base) (depth : Nat) :
    ShowsAlike notes base (materialize depth) := by
  induction depth with
  | zero =>
    intro expected store x x' retraced plays seen
    exact .throw retraced
  | succ depth ih =>
    intro expected store x x' retraced plays seen
    exact materializeWith_retraces accounts ih depth (depth + 1) [] retraced plays seen

/-- The value that a cell holds. -/
def Cell.value? : Cell → Option Value
  | .value v => some v
  | .suspended _ => none

/-- Every cell of a store is expected to come to the value that it holds already, and nothing is
expected of a number of further cells. -/
def Store.held (store : Store) (more : Nat) : Expected :=
  store.cells.toList.map Cell.value? ++ List.replicate more none

theorem held_eq_some_iff (store : Store) (more : Nat) (x : CellId) (v : Value) :
    (store.held more).of x = some v ↔ store.Has x ∧ store.cell x = .value v := by
  rcases x with ⟨i⟩
  by_cases inside : i < store.cells.size
  · have read : (store.held more).of ⟨i⟩ = (store.cell ⟨i⟩).value? := by
      simp [Store.held, Labels.of, Store.cell, inside, List.getElem?_append_left]
    rw [read]
    cases store.cell ⟨i⟩ with
    | value w => simp [Cell.value?, Store.Has, inside]
    | suspended s => simp [Cell.value?]
  · have nothing : (store.held more).of ⟨i⟩ = none := by
      have beyond : store.cells.size ≤ i := Nat.le_of_not_lt inside
      simp only [Store.held, Labels.of, List.getD_eq_getElem?_getD, List.getElem?_append_right,
        List.length_map, Array.length_toList, beyond, List.getElem?_replicate]
      split <;> rfl
    simp [nothing, Store.Has, inside]

/-- **A later run can start** where the first run ended, or in a store that goes beyond. -/
theorem Notes.Accounts.retraced (accounts : notes.Accounts base) (extended : base.Extended store) :
    Retraced notes base (base.held (store.cells.size - base.cells.size)) store where
  length := by
    have le := extended.le
    simp only [Store.held, List.length_append, List.length_map, Array.length_toList,
      List.length_replicate]
    omega
  extended := extended
  learned x v learned := (held_eq_some_iff base _ x v).mpr ((accounts.learned_iff x v).mp learned)
  known x v _ due := ⟨v, ((held_eq_some_iff base _ x v).mp due).2⟩
  cells x v due := by
    obtain ⟨there, holds⟩ := (held_eq_some_iff base _ x v).mp due
    rw [extended.kept x there, holds]
    refine .value (.refl v fun y _ w learned => ?_)
    exact (held_eq_some_iff base _ y w).mpr ((accounts.learned_iff y w).mp learned)

/-- **Evaluating the same expression again retraces the first run**, with any depth. -/
theorem eval_retraces {env : TableId} {code : String} {e : Expression}
    (accounts : notes.Accounts base) (listed : lex code = e.listing)
    (composed : notes.Composed env e x) (seen : notes.Materialized x) (depth : Nat)
    (extended : base.Extended store) :
    base.Extended ((Interpreter.eval depth env code).after store) := by
  have whole : lex code = (Phrase.whole e).tokens := listed
  have retraced := accounts.retraced extended
  have retraces : Retraces notes base (base.held (store.cells.size - base.cells.size))
      (Interpreter.eval depth env code) store fun _ _ => True := by
    unfold Interpreter.eval
    rw [Reader.parse_eq_build whole depth env]
    refine (build_retraces accounts depth retraced composed).bind
      fun y expected₁ store₁ resumes₁ plays => ?_
    refine (materialize_retraces accounts depth resumes₁.retraced plays seen).bind
      fun tree expected₂ store₂ resumes₂ _ => ?_
    unfold showTree
    split
    · exact .pure resumes₂.retraced trivial
    · exact .throw resumes₂.retraced
  refine Eval.Ensures.after base.Extended retraces ?_ ?_
  · rintro answer later ⟨expected', resumes, -⟩
    exact resumes.retraced.extended
  · rintro failure later ⟨expected', resumes⟩
    exact resumes.retraced.extended

end ByNeed
