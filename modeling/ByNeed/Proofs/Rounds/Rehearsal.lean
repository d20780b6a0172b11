/-
**What a first run finds.**

A run that answers leaves notes, from which all that it did can be told: the values that it saw are in
the store it leads to, and every suspension that it added and that has a value now came to it for a
reason on the notes. A later run, which meets other cells in the same places, can follow these reasons
although it does some of the work earlier or later than the first.

* `Rehearsed`: the notes of a run that has come to a store account for every cell of it;
* `apply_rehearses`, `force_rehearses`: **a run that answers accounts for all that it does**;
* `eval_rehearses`: the notes of an evaluation account for the store that it leads to.
-/

import ByNeed.Proofs.Grammar
import ByNeed.Proofs.Progress
import ByNeed.Proofs.Rounds.Notes

namespace ByNeed

/-! ### The store of a run -/

/-- The notes of what has been done since a store. -/
def Notes.since (first : Store) (made : List Change) : Notes where
  learned x v := .replaced x v ∈ made ∨ .added x (.value v) ∈ made ∨
    first.Has x ∧ first.cell x = .value v
  added x c := .added x c ∈ made
  bound table name x := (first.table table).lookup name = some x

theorem Notes.since_le (first : Store) {made made' : List Change} (more : made ⊆ made') :
    (Notes.since first made).Le (.since first made') where
  learned learned := learned.imp (more ·) (Or.imp_left (more ·))
  added added := more added
  bound bound := bound

/-- **The notes of a run account for every cell of the store**: why it holds its value, or where its
suspension comes from. Cells refer to cells that are there. -/
structure Rehearsed (first : Store) (made : List Change) (store : Store) : Prop where
  changes : store.changes = made ++ first.changes
  tables : store.tables = first.tables
  has : ∀ x, first.Has x → store.Has x
  values : ∀ x v, store.Has x → store.cell x = .value v → (Notes.since first made).learned x v
  suspended : ∀ x s, store.cell x = .suspended s →
    first.Has x ∧ first.cell x = .suspended s ∨ .added x (.suspended s) ∈ made
  added : ∀ x c, .added x c ∈ made → ¬ first.Has x ∧ store.Has x
  unique : ∀ x c c', .added x c ∈ made → .added x c' ∈ made → c = c'
  replaced : ∀ x v, .replaced x v ∈ made → store.Has x
  ran : ∀ x s v, .added x (.suspended s) ∈ made → .replaced x v ∈ made →
    (Notes.since first made).Ran s v
  closed : ∀ x v, (Notes.since first made).learned x v → ∀ y ∈ v.cells, store.Has y
  closedWork : ∀ x s, store.cell x = .suspended s → ∀ y ∈ s.cells, store.Has y
  bound : ∀ table name x, (first.table table).lookup name = some x → store.Has x

/-- **A run has gone further.** -/
structure Advances (first : Store) (made : List Change) (store : Store) (made' : List Change)
    (later : Store) : Prop where
  more : made ⊆ made'
  has : ∀ x, store.Has x → later.Has x
  rehearsed : Rehearsed first made' later

variable {first store later last : Store} {made made' made'' : List Change} {x y f r : CellId}
  {c : Cell} {s : Suspension} {v : Value} {effect : Effect}

theorem Advances.refl (rehearsed : Rehearsed first made store) :
    Advances first made store made store :=
  ⟨fun _ member => member, fun _ there => there, rehearsed⟩

theorem Advances.trans (before : Advances first made store made' later)
    (after : Advances first made' later made'' last) : Advances first made store made'' last :=
  ⟨fun _ member => after.more (before.more member), fun x there => after.has x (before.has x there),
    after.rehearsed⟩

theorem Advances.le (advances : Advances first made store made' later) :
    (Notes.since first made).Le (.since first made') :=
  Notes.since_le first advances.more

namespace Rehearsed

/-- **A cell is added.** -/
theorem alloc (rehearsed : Rehearsed first made store) (inside : ∀ y ∈ c.cells, store.Has y) :
    Advances first made store (.added (store.alloc c).1 c :: made) (store.alloc c).2 := by
  have grown : ∀ {y}, store.Has y → (store.alloc c).2.Has y := fun there =>
    (Store.has_alloc_iff store c).mpr (Or.inl there)
  have more : made ⊆ .added (store.alloc c).1 c :: made := List.subset_cons_self _ _
  have le := Notes.since_le first more
  have fresh : ∀ {y}, store.Has y → y ≠ (store.alloc c).1 := by
    rintro y there rfl
    exact Store.not_has_alloc store c there
  have given : ∀ {y v}, .replaced y v ∈ .added (store.alloc c).1 c :: made →
      .replaced y v ∈ made := fun member => by simpa using member
  refine ⟨more, fun y there => grown there, ?_⟩
  refine ⟨congrArg (_ :: ·) rehearsed.changes, rehearsed.tables,
    fun y there => grown (rehearsed.has y there), ?_, ?_, ?_, ?_,
    fun y v member => grown (rehearsed.replaced y v (given member)), ?_, ?_, ?_,
    fun table name y found => grown (rehearsed.bound table name y found)⟩
  · intro y v there holds
    rcases (Store.has_alloc_iff store c).mp there with there | rfl
    · rw [Store.cell_alloc_of_has there] at holds
      exact le.learned (rehearsed.values y v there holds)
    · rw [Store.cell_alloc_self] at holds
      exact Or.inr (Or.inl (holds ▸ List.mem_cons_self))
  · intro y s holds
    rcases (Store.has_alloc_iff store c).mp (Store.has_of_suspended holds) with there | rfl
    · rw [Store.cell_alloc_of_has there] at holds
      exact (rehearsed.suspended y s holds).imp_right (more ·)
    · rw [Store.cell_alloc_self] at holds
      exact Or.inr (holds ▸ List.mem_cons_self)
  · intro y c' member
    rcases List.mem_cons.mp member with same | member
    · cases same
      exact ⟨fun there => fresh (rehearsed.has _ there) rfl, Store.has_alloc store c⟩
    · exact (rehearsed.added y c' member).imp_right grown
  · intro y c₁ c₂ member member'
    rcases List.mem_cons.mp member with same | member
    · cases same
      rcases List.mem_cons.mp member' with same' | member'
      · cases same'
        rfl
      · exact (fresh (rehearsed.added _ c₂ member').2 rfl).elim
    · rcases List.mem_cons.mp member' with same' | member'
      · cases same'
        exact (fresh (rehearsed.added _ c₁ member).2 rfl).elim
      · exact rehearsed.unique y c₁ c₂ member member'
  · intro y s v member replaced
    rcases List.mem_cons.mp member with same | member
    · cases same
      exact (fresh (rehearsed.replaced _ v (given replaced)) rfl).elim
    · exact (rehearsed.ran y s v member (given replaced)).mono le
  · rintro y v (replaced | added | old) z member
    · exact grown (rehearsed.closed y v (Or.inl (given replaced)) z member)
    · rcases List.mem_cons.mp added with same | added
      · cases same
        exact grown (inside z member)
      · exact grown (rehearsed.closed y v (Or.inr (Or.inl added)) z member)
    · exact grown (rehearsed.closed y v (Or.inr (Or.inr old)) z member)
  · intro y s holds z member
    rcases (Store.has_alloc_iff store c).mp (Store.has_of_suspended holds) with there | rfl
    · rw [Store.cell_alloc_of_has there] at holds
      exact grown (rehearsed.closedWork y s holds z member)
    · rw [Store.cell_alloc_self] at holds
      exact grown (inside z (by rwa [holds]))

/-- The cells of a value that a suspension came to are there. -/
theorem ran_cells (rehearsed : Rehearsed first made store) (ran : (Notes.since first made).Ran s v) :
    ∀ y ∈ v.cells, store.Has y := by
  cases ran with
  | apply _ _ learned => exact rehearsed.closed _ _ learned
  | half _ learned => exact rehearsed.closed _ _ learned
  | lookup _ learned => exact rehearsed.closed _ _ learned
  | observe learned => exact rehearsed.closed _ _ learned
  | monop _ => exact fun _ member => nomatch member
  | binop _ _ result => exact Binop.cells_of_apply result ▸ fun _ member => nomatch member
  | isNil _ => exact cells_boolean _ ▸ fun _ member => nomatch member
  | share _ _ _ learned => exact rehearsed.closed _ _ learned

/-- **A suspended cell is given the value that it came to.** -/
theorem commit {older : List Change} {before : Store} (rehearsed : Rehearsed first made store)
    (began : Rehearsed first older before) (more : older ⊆ made) (there : store.Has x)
    (suspended : before.cell x = .suspended s) (ran : (Notes.since first made).Ran s v) :
    Advances first made store (.replaced x v :: made) (store.commit x v) := by
  have grown : ∀ {y}, store.Has y → (store.commit x v).Has y :=
    (Store.has_commit_iff store x v).mpr
  have later : made ⊆ .replaced x v :: made := List.subset_cons_self _ _
  have le := Notes.since_le first later
  have given : ∀ {y c}, .added y c ∈ .replaced x v :: made → .added y c ∈ made :=
    fun member => by simpa using member
  refine ⟨later, fun y there => grown there, ?_⟩
  refine ⟨congrArg (_ :: ·) rehearsed.changes, rehearsed.tables,
    fun y there => grown (rehearsed.has y there), ?_, ?_,
    fun y c member => (rehearsed.added y c (given member)).imp_right grown,
    fun y c c' member member' => rehearsed.unique y c c' (given member) (given member'),
    ?_, ?_, ?_, ?_, fun table name y found => grown (rehearsed.bound table name y found)⟩
  · intro y w inside holds
    rw [Store.cell_commit there] at holds
    by_cases same : y = x
    · rw [if_pos same] at holds
      cases holds
      exact Or.inl (same ▸ List.mem_cons_self)
    · rw [if_neg same] at holds
      exact le.learned (rehearsed.values y w ((Store.has_commit_iff store x v).mp inside) holds)
  · intro y s' holds
    rw [Store.cell_commit there] at holds
    by_cases same : y = x
    · rw [if_pos same] at holds
      cases holds
    · rw [if_neg same] at holds
      exact (rehearsed.suspended y s' holds).imp_right (later ·)
  · intro y w member
    rcases List.mem_cons.mp member with same | member
    · cases same
      exact grown there
    · exact grown (rehearsed.replaced y w member)
  · intro y s' w member replaced
    rcases List.mem_cons.mp replaced with same | replaced
    · cases same
      -- The cell was added with the suspension that was found in it before it was run.
      have same : s' = s := by
        rcases began.suspended x s suspended with ⟨old, -⟩ | found
        · exact ((rehearsed.added x _ (given member)).1 old).elim
        · cases rehearsed.unique x _ _ (given member) (more found)
          rfl
      exact same ▸ ran.mono le
    · exact (rehearsed.ran y s' w (given member) replaced).mono le
  · rintro y w (replaced | added | old) z member
    · rcases List.mem_cons.mp replaced with same | replaced
      · cases same
        exact grown (rehearsed.ran_cells ran z member)
      · exact grown (rehearsed.closed y w (Or.inl replaced) z member)
    · exact grown (rehearsed.closed y w (Or.inr (Or.inl (given added))) z member)
    · exact grown (rehearsed.closed y w (Or.inr (Or.inr old)) z member)
  · intro y s' holds z member
    rw [Store.cell_commit there] at holds
    by_cases same : y = x
    · rw [if_pos same] at holds
      cases holds
    · rw [if_neg same] at holds
      exact grown (rehearsed.closedWork y s' holds z member)

end Rehearsed

/-! ### Runs that answer -/

/-- **If the computation answers, the run has gone further**, and its notes say `good` of the
answer. -/
def Rehearses {α : Type} (first : Store) (made : List Change) (computation : Eval α) (store : Store)
    (good : Notes → α → Prop) : Prop :=
  computation.Ensures store
    (fun a later => ∃ made', Advances first made store made' later ∧ good (.since first made') a)
    fun _ _ => True

namespace Rehearses

variable {α β : Type} {computation : Eval α} {next : α → Eval β} {good : Notes → α → Prop}
  {good' : Notes → β → Prop}

theorem pure {a : α} (rehearsed : Rehearsed first made store) (holds : good (.since first made) a) :
    Rehearses first made (Pure.pure a) store good :=
  ⟨made, .refl rehearsed, holds⟩

theorem bind (rehearses : Rehearses first made computation store good)
    (rest : ∀ a made' later, Advances first made store made' later → good (.since first made') a →
      Rehearses first made' (next a) later good') :
    Rehearses first made (computation >>= next) store good' := by
  refine Eval.Ensures.bind rehearses ?_ fun _ _ _ => trivial
  rintro a later ⟨made', advances, holds⟩
  refine (rest a made' later advances holds).mono ?_ fun _ _ _ => trivial
  rintro b last ⟨made'', advances', holds'⟩
  exact ⟨made'', advances.trans advances', holds'⟩

theorem mono {better : Notes → α → Prop} (rehearses : Rehearses first made computation store better)
    (weaker : ∀ a made' later, Advances first made store made' later → better (.since first made') a →
      good (.since first made') a) : Rehearses first made computation store good := by
  refine Eval.Ensures.mono rehearses ?_ fun _ _ _ => trivial
  rintro a later ⟨made', advances, holds⟩
  exact ⟨made', advances, weaker a made' later advances holds⟩

/-- What a computation does depends on its outcome only. -/
theorem congr {other : Eval α} (same : computation store = other store)
    (rehearses : Rehearses first made other store good) :
    Rehearses first made computation store good :=
  (Eval.ensures_congr same).mpr rehearses

/-- A cell is read. -/
theorem cell {next : Cell → Eval β} (rest : Rehearses first made (next (store.cell x)) store good') :
    Rehearses first made (Eval.cell x >>= next) store good' :=
  (Eval.ensures_bind (Eval.cell x) next).mpr rest

/-- A cell is added. -/
theorem alloc {good : Notes → CellId → Prop} (rehearsed : Rehearsed first made store)
    (inside : ∀ y ∈ c.cells, store.Has y)
    (holds : ∀ {notes : Notes} {y}, notes.added y c → good notes y) :
    Rehearses first made (Eval.alloc c) store good :=
  ⟨_, rehearsed.alloc inside, holds List.mem_cons_self⟩

theorem value (v : Value) (rehearsed : Rehearsed first made store)
    (inside : ∀ y ∈ v.cells, store.Has y) :
    Rehearses first made (Eval.value v) store fun notes y => notes.added y (.value v) :=
  alloc rehearsed inside id

/-- A label is left. -/
theorem observe (rehearsed : Rehearsed first made store) (label : String) :
    Rehearses first made (Eval.observe label) store fun _ _ => True :=
  ⟨made, ⟨fun _ member => member, fun _ there => there,
    ⟨rehearsed.changes, rehearsed.tables, rehearsed.has, rehearsed.values, rehearsed.suspended,
      rehearsed.added, rehearsed.unique, rehearsed.replaced, rehearsed.ran, rehearsed.closed,
      rehearsed.closedWork, rehearsed.bound⟩⟩, trivial⟩

end Rehearses

/-! ### Applying -/

/-- What a value seen in a cell does refers to cells that are there. -/
theorem Rehearsed.effect_cells (rehearsed : Rehearsed first made store)
    (learned : (Notes.since first made).learned f v) (there : store.Has x) :
    ∀ y ∈ (v.effect x).cells, store.Has y := by
  intro y member
  rcases List.mem_cons.mp (v.cells_effect x member) with rfl | held
  · exact there
  · exact rehearsed.closed f v learned y held

/-- The half of a pair that was seen is there. -/
theorem Rehearsed.half_has {head tail : CellId} (rehearsed : Rehearsed first made store)
    (learned : (Notes.since first made).learned x (.pair head tail)) (side : Half) :
    store.Has (side.of head tail) := by
  have cells := rehearsed.closed _ _ learned
  cases side with
  | head => exact cells head (by simp [Value.cells])
  | tail => exact cells tail (by simp [Value.cells])

/-- **A cell that was answered is there.** -/
theorem Rehearsed.acted_has (rehearsed : Rehearsed first made store)
    (acted : (Notes.since first made).Acted effect r) (inside : ∀ y ∈ effect.cells, store.Has y) :
    store.Has r := by
  induction acted with
  | answer x => exact inside x (by simp [Effect.cells])
  | add added => exact (rehearsed.added _ _ added).2
  | half side learned => exact rehearsed.half_has learned side
  | halfLater added => exact (rehearsed.added _ _ added).2
  | apply learned _ ih =>
    exact ih (rehearsed.effect_cells learned (inside _ (by simp [Effect.cells])))
  | applyLater added => exact (rehearsed.added _ _ added).2
  | applyTwice _ _ ih ih' =>
    simp only [Effect.cells, List.mem_cons, List.not_mem_nil, or_false, forall_eq_or_imp,
      forall_eq] at inside ih ih'
    exact ih' ⟨ih ⟨inside.1, inside.2.1⟩, inside.2.2⟩
  | applyNested _ _ ih ih' =>
    simp only [Effect.cells, List.mem_cons, List.not_mem_nil, or_false, forall_eq_or_imp,
      forall_eq] at inside ih ih'
    exact ih' ⟨inside.1, ih ⟨inside.2.1, inside.2.2⟩⟩

theorem Rehearsed.questioned_has {function : Func} (rehearsed : Rehearsed first made store)
    (questioned : (Notes.since first made).Questioned function x) : store.Has x := by
  obtain ⟨asked, never, mark, mark', acted, acted', acted''⟩ := questioned
  have there : ∀ {y c}, (Notes.since first made).added y c → store.Has y := fun added =>
    (rehearsed.added _ _ added).2
  have thereG := rehearsed.acted_has acted (by simpa [Effect.cells] using ⟨there asked, there never⟩)
  have thereH := rehearsed.acted_has acted' (by simpa [Effect.cells] using ⟨thereG, there mark⟩)
  exact rehearsed.acted_has acted'' (by simpa [Effect.cells] using ⟨thereH, there mark'⟩)

theorem half_rehearses {whole : CellId} (side : Half) (rehearsed : Rehearsed first made store)
    (learned : (Notes.since first made).learned whole v) :
    Rehearses first made (v.half side) store fun notes r => ∃ head tail,
      notes.learned whole (.pair head tail) ∧ r = side.of head tail := by
  cases v with
  | pair head tail =>
    rw [half_pair]
    exact .pure rehearsed ⟨head, tail, learned, rfl⟩
  | num n => cases side <;> trivial
  | nil => cases side <;> trivial
  | func f => cases side <;> trivial

theorem takeHalf_rehearses (side : Half) (rehearsed : Rehearsed first made store)
    (there : store.Has x) :
    Rehearses first made (takeHalf side x) store fun notes r => notes.Acted (.take side x) r := by
  refine .cell ?_
  cases holds : store.cell x with
  | value v =>
    refine (half_rehearses side rehearsed (rehearsed.values x v there holds)).mono ?_
    rintro r made' later - ⟨head, tail, learned, rfl⟩
    exact .half side learned
  | suspended s =>
    exact .alloc rehearsed (by simpa [Cell.cells, Suspension.cells] using there) .halfLater

/-- Applying cells accounts for what it does. -/
def AppliesNoted (first : Store) (apply : CellId → CellId → Eval CellId) : Prop :=
  ∀ {made : List Change} {store : Store} {f x : CellId}, Rehearsed first made store →
    store.Has f → store.Has x →
    Rehearses first made (apply f x) store fun notes r => notes.Acted (.apply f x) r

section Apply

variable {apply : CellId → CellId → Eval CellId} (applied : AppliesNoted first apply)

include applied

/-- A cell is applied, and the run goes on with the answer, which is there. -/
theorem AppliesNoted.bind {α : Type} {next : CellId → Eval α} {good : Notes → α → Prop}
    (rehearsed : Rehearsed first made store) (thereF : store.Has f) (thereX : store.Has x)
    (rest : ∀ r made' later, Advances first made store made' later → later.Has r →
      (Notes.since first made').Acted (.apply f x) r → Rehearses first made' (next r) later good) :
    Rehearses first made (apply f x >>= next) store good := by
  refine (applied rehearsed thereF thereX).bind fun r made' later advances acted => ?_
  have thereR := advances.rehearsed.acted_has acted
    (by simpa [Effect.cells] using ⟨advances.has f thereF, advances.has x thereX⟩)
  exact rest r made' later advances thereR acted

/-- **An effect accounts for its answer.** -/
theorem effect_rehearses (rehearsed : Rehearsed first made store)
    (inside : ∀ y ∈ effect.cells, store.Has y) :
    Rehearses first made (effect.run apply) store fun notes r => notes.Acted effect r := by
  cases effect with
  | answer x => exact .pure rehearsed (.answer x)
  | add c => exact .alloc rehearsed inside .add
  | take side x => exact takeHalf_rehearses side rehearsed (inside x (by simp [Effect.cells]))
  | apply f x =>
    simp only [Effect.cells, List.mem_cons, List.not_mem_nil, or_false, forall_eq_or_imp,
      forall_eq] at inside
    exact applied rehearsed inside.1 inside.2
  | applyTwice f x y =>
    simp only [Effect.cells, List.mem_cons, List.not_mem_nil, or_false, forall_eq_or_imp,
      forall_eq] at inside
    obtain ⟨thereF, thereX, thereY⟩ := inside
    refine applied.bind rehearsed thereF thereX fun g made' later advances thereG acted => ?_
    refine (applied advances.rehearsed thereG (advances.has y thereY)).mono ?_
    exact fun r made'' last advances' acted' => .applyTwice (acted.mono advances'.le) acted'
  | applyNested f g x =>
    simp only [Effect.cells, List.mem_cons, List.not_mem_nil, or_false, forall_eq_or_imp,
      forall_eq] at inside
    obtain ⟨thereF, thereG, thereX⟩ := inside
    refine applied.bind rehearsed thereG thereX fun y made' later advances thereY acted => ?_
    refine (applied advances.rehearsed (advances.has f thereF) thereY).mono ?_
    exact fun r made'' last advances' acted' => .applyNested (acted.mono advances'.le) acted'
  | refuse n =>
    rw [Effect.run, Rehearses, Eval.ensures_faultShowing]
    trivial

theorem applyWith_rehearses (rehearsed : Rehearsed first made store)
    (learned : (Notes.since first made).learned f v) (there : store.Has x) :
    Rehearses first made (v.applyWith apply x) store fun notes r => notes.Acted (v.effect x) r := by
  rw [applyWith_eq_run]
  exact effect_rehearses applied rehearsed (rehearsed.effect_cells learned there)

end Apply

theorem applyCellWith_rehearses {applyValue : Value → CellId → Eval CellId}
    (rehearsed : Rehearsed first made store) (thereF : store.Has f) (thereX : store.Has x)
    (applied : ∀ v, (Notes.since first made).learned f v →
      Rehearses first made (applyValue v x) store fun notes r => notes.Acted (v.effect x) r) :
    Rehearses first made (applyCellWith applyValue f x) store fun notes r =>
      notes.Acted (.apply f x) r := by
  refine .cell ?_
  cases holds : store.cell f with
  | suspended s =>
    exact .alloc rehearsed (by simpa [Cell.cells, Suspension.cells] using ⟨thereF, thereX⟩)
      .applyLater
  | value v =>
    have learned := rehearsed.values f v thereF holds
    exact (applied v learned).mono fun r made' later advances acted =>
      .apply (advances.le.learned learned) acted

/-- **Applying accounts for its answer.** -/
theorem apply_rehearses (first : Store) (depth : Nat) : AppliesNoted first (apply depth) := by
  induction depth with
  | zero =>
    intro made store f x rehearsed thereF thereX
    exact applyCellWith_rehearses rehearsed thereF thereX fun _ _ => trivial
  | succ depth ih =>
    intro made store f x rehearsed thereF thereX
    exact applyCellWith_rehearses rehearsed thereF thereX fun v learned =>
      applyWith_rehearses ih rehearsed learned thereX

/-! ### Forcing -/

/-- Forcing cells accounts for what it does. -/
def ForcesNoted (first : Store) (force : CellId → Eval Value) : Prop :=
  ∀ {made : List Change} {store : Store} {x : CellId}, Rehearsed first made store → store.Has x →
    Rehearses first made (force x) store fun notes v => notes.learned x v

theorem toInt_rehearses (operation : String) (rehearsed : Rehearsed first made store)
    (learned : (Notes.since first made).learned x v) :
    Rehearses first made (v.toInt operation) store fun notes n => notes.learned x (.num n) := by
  cases v with
  | num n => exact .pure rehearsed learned
  | _ => trivial

section Force

variable {force : CellId → Eval Value} {apply : CellId → CellId → Eval CellId}
  (forced : ForcesNoted first force) (applied : AppliesNoted first apply)

include forced in
theorem answerWith_rehearses (name : Option String) (rehearsed : Rehearsed first made store)
    (there : store.Has x) :
    Rehearses first made (answerWith force name x) store fun notes v => notes.learned x v := by
  unfold answerWith Rehearses
  rw [Eval.ensures_bind, Eval.ensures_outcome]
  refine Eval.Ensures.mono (forced rehearsed there) (fun v later found => found)
    fun failure later _ => ?_
  cases failure <;> trivial

include applied in
theorem questionWith_rehearses (function : Func) (rehearsed : Rehearsed first made store)
    (inside : ∀ y ∈ function.held, store.Has y) :
    Rehearses first made (questionWith apply function) store fun notes question =>
      notes.Questioned function question := by
  refine (Rehearses.value (.func function) rehearsed inside).bind
    fun asked made₁ store₁ advances₁ added₁ => ?_
  refine (Rehearses.value (.func (.binary .never)) advances₁.rehearsed
    fun _ member => nomatch member).bind fun never made₂ store₂ advances₂ added₂ => ?_
  refine (Rehearses.value (.num nilMark) advances₂.rehearsed fun _ member => nomatch member).bind
    fun mark made₃ store₃ advances₃ added₃ => ?_
  refine (Rehearses.value (.num pairMark) advances₃.rehearsed fun _ member => nomatch member).bind
    fun mark' made₄ store₄ advances₄ added₄ => ?_
  have added₃ := advances₄.le.added added₃
  have added₂ := (advances₃.trans advances₄).le.added added₂
  have added₁ := (advances₂.trans (advances₃.trans advances₄)).le.added added₁
  have there : ∀ {y c}, (Notes.since first made₄).added y c → store₄.Has y := fun added =>
    (advances₄.rehearsed.added _ _ added).2
  simp only [List.foldlM_cons, List.foldlM_nil, bind_pure]
  refine applied.bind advances₄.rehearsed (there added₁) (there added₂)
    fun g made₅ store₅ advances₅ thereG acted₅ => ?_
  refine applied.bind advances₅.rehearsed thereG (advances₅.has _ (there added₃))
    fun h made₆ store₆ advances₆ thereH acted₆ => ?_
  have more := advances₅.trans advances₆
  refine (applied advances₆.rehearsed thereH (more.has _ (there added₄))).mono
    fun question made₇ store₇ advances₇ acted₇ => ?_
  have le := (more.trans advances₇).le
  exact .put (le.added added₁) (le.added added₂) (le.added added₃) (le.added added₄)
    (acted₅.mono (advances₆.trans advances₇).le) (acted₆.mono advances₇.le) acted₇

include forced applied

theorem isNilWith_rehearses (rehearsed : Rehearsed first made store) (there : store.Has x) :
    Rehearses first made (isNilWith force apply x) store fun notes truth => notes.Asked x truth := by
  refine (forced rehearsed there).bind fun v made₁ store₁ advances₁ learned => ?_
  have rehearsed₁ := advances₁.rehearsed
  cases v with
  | nil => exact .pure rehearsed₁ (.nil learned)
  | pair head tail => exact .pure rehearsed₁ (.pair learned)
  | num n => trivial
  | func f =>
    refine (questionWith_rehearses applied f rehearsed₁ (rehearsed₁.closed x _ learned)).bind
      fun question made₂ store₂ advances₂ questioned => ?_
    refine (answerWith_rehearses forced f.name advances₂.rehearsed
      (advances₂.rehearsed.questioned_has questioned)).bind
      fun answer made₃ store₃ advances₃ answered => ?_
    have learned := (advances₂.trans advances₃).le.learned learned
    have questioned := questioned.mono advances₃.le
    by_cases likeNil : answer = .num nilMark
    · rw [if_pos likeNil]
      exact .pure advances₃.rehearsed (.func learned questioned (likeNil ▸ answered))
    · rw [if_neg likeNil]
      by_cases likePair : answer = .num pairMark
      · rw [if_pos likePair]
        exact .pure advances₃.rehearsed (.func learned questioned (likePair ▸ answered))
      · rw [if_neg likePair]
        trivial

/-- **Running a suspension accounts for its value.** -/
theorem run_rehearses (rehearsed : Rehearsed first made store)
    (inside : ∀ y ∈ s.cells, store.Has y) :
    Rehearses first made (s.run force apply) store fun notes v => notes.Ran s v := by
  cases s with
  | apply f x =>
    have thereX := inside x (by simp [Suspension.cells])
    refine (forced rehearsed (inside f (by simp [Suspension.cells]))).bind
      fun operator made₁ store₁ advances₁ learned => ?_
    refine (applyWith_rehearses applied advances₁.rehearsed learned (advances₁.has x thereX)).bind
      fun r made₂ store₂ advances₂ acted => ?_
    have thereR := advances₂.rehearsed.acted_has acted (advances₂.rehearsed.effect_cells
      (advances₂.le.learned learned) (advances₂.has x (advances₁.has x thereX)))
    refine (forced advances₂.rehearsed thereR).mono fun v made₃ store₃ advances₃ result => ?_
    exact .apply ((advances₂.trans advances₃).le.learned learned) (acted.mono advances₃.le) result
  | half side x =>
    refine (forced rehearsed (inside x (by simp [Suspension.cells]))).bind
      fun whole made₁ store₁ advances₁ learned => ?_
    refine (half_rehearses side advances₁.rehearsed learned).bind
      fun r made₂ store₂ advances₂ found => ?_
    obtain ⟨head, tail, learned, rfl⟩ := found
    have there := advances₂.rehearsed.half_has learned side
    refine (forced advances₂.rehearsed there).mono fun v made₃ store₃ advances₃ result => ?_
    exact .half (advances₃.le.learned learned) result
  | lookup table name =>
    have same := Store.table_congr rehearsed.tables table
    refine .congr (run_lookup force apply table name store) ?_
    rw [same]
    cases found : (first.table table).lookup name with
    | none => trivial
    | some x =>
      exact (forced rehearsed (rehearsed.bound table name x found)).mono
        fun v made' later advances learned => .lookup found learned
  | observe label x =>
    refine Rehearses.bind (.observe rehearsed label) fun _ made₁ store₁ advances₁ _ => ?_
    have there := advances₁.has x (inside x (by simp [Suspension.cells]))
    exact (forced advances₁.rehearsed there).mono fun v made' later _ learned => .observe learned
  | monop op x =>
    refine (forced rehearsed (inside x (by simp [Suspension.cells]))).bind
      fun operand made₁ store₁ advances₁ learned => ?_
    refine (toInt_rehearses op.name advances₁.rehearsed learned).bind
      fun n made₂ store₂ advances₂ learned => ?_
    exact .pure advances₂.rehearsed (.monop learned)
  | binop op x y =>
    have thereY := inside y (by simp [Suspension.cells])
    refine (forced rehearsed (inside x (by simp [Suspension.cells]))).bind
      fun left made₁ store₁ advances₁ learned => ?_
    refine (toInt_rehearses op.name advances₁.rehearsed learned).bind
      fun m made₂ store₂ advances₂ learned => ?_
    refine (forced advances₂.rehearsed (advances₂.has y (advances₁.has y thereY))).bind
      fun right made₃ store₃ advances₃ learned' => ?_
    refine (toInt_rehearses op.name advances₃.rehearsed learned').bind
      fun n made₄ store₄ advances₄ learned' => ?_
    cases result : op.apply m n with
    | error reason => trivial
    | ok v =>
      have learned := (advances₃.trans advances₄).le.learned learned
      exact .pure advances₄.rehearsed (.binop learned learned' result)
  | isNil x =>
    refine (isNilWith_rehearses forced applied rehearsed
      (inside x (by simp [Suspension.cells]))).bind fun truth made₁ store₁ advances₁ asked => ?_
    exact .pure advances₁.rehearsed (.isNil asked)
  | share a b c =>
    have thereB := inside b (by simp [Suspension.cells])
    have thereC := inside c (by simp [Suspension.cells])
    refine applied.bind rehearsed (inside a (by simp [Suspension.cells])) thereC
      fun f made₁ store₁ advances₁ thereF acted₁ => ?_
    refine applied.bind advances₁.rehearsed (advances₁.has b thereB) (advances₁.has c thereC)
      fun x made₂ store₂ advances₂ thereX acted₂ => ?_
    refine applied.bind advances₂.rehearsed (advances₂.has f thereF) thereX
      fun r made₃ store₃ advances₃ thereR acted₃ => ?_
    refine (forced advances₃.rehearsed thereR).mono fun v made₄ store₄ advances₄ result => ?_
    exact .share (acted₁.mono (advances₂.trans (advances₃.trans advances₄)).le)
      (acted₂.mono (advances₃.trans advances₄).le) (acted₃.mono advances₄.le) result

end Force

theorem forceCellWith_rehearses {run : Suspension → Eval Value}
    (rehearsed : Rehearsed first made store) (there : store.Has x)
    (runs : ∀ s, (∀ y ∈ s.cells, store.Has y) →
      Rehearses first made (run s) store fun notes v => notes.Ran s v) :
    Rehearses first made (forceCellWith run x) store fun notes v => notes.learned x v := by
  refine .cell ?_
  cases holds : store.cell x with
  | value v => exact .pure rehearsed (rehearsed.values x v there holds)
  | suspended s =>
    refine (runs s (rehearsed.closedWork x s holds)).bind fun v made' later advances ran => ?_
    have committed := advances.rehearsed.commit rehearsed advances.more (advances.has x there) holds
      ran
    exact ⟨_, committed, Or.inl List.mem_cons_self⟩

/-- **Forcing accounts for the value of the cell.** -/
theorem force_rehearses (first : Store) (depth : Nat) : ForcesNoted first (force depth) := by
  induction depth with
  | zero =>
    intro made store x rehearsed there
    exact forceCellWith_rehearses rehearsed there fun _ _ => trivial
  | succ depth ih =>
    intro made store x rehearsed there
    exact forceCellWith_rehearses rehearsed there fun s inside =>
      run_rehearses ih (apply_rehearses first depth) rehearsed inside

/-! ### Reading and showing -/

theorem Rehearsed.composed_has {env : TableId} {e : Expression}
    (rehearsed : Rehearsed first made store) (composed : (Notes.since first made).Composed env e x) :
    store.Has x := by
  induction composed with
  | number added => exact (rehearsed.added _ _ added).2
  | bound bound => exact rehearsed.bound _ _ _ bound
  | unbound added => exact (rehearsed.added _ _ added).2
  | ap _ _ acted ih ih' => exact rehearsed.acted_has acted (by simpa [Effect.cells] using ⟨ih, ih'⟩)

/-- **Building an expression accounts for its cell.** -/
theorem build_rehearses (depth : Nat) (env : TableId) (e : Expression)
    (rehearsed : Rehearsed first made store) :
    Rehearses first made (e.build depth env) store fun notes x => notes.Composed env e x := by
  induction e generalizing made store with
  | number numeral =>
    rw [Expression.build, Numeral.read]
    split
    · exact (Rehearses.value (.num numeral.toInt) rehearsed fun _ => List.not_mem_nil.elim).mono
        fun x made' later _ added => .number added
    · trivial
  | symbol name =>
    have same := Store.table_congr rehearsed.tables env
    cases found : (first.table env).lookup name with
    | some x =>
      refine .congr (reference_of_bound (same ▸ found)) ?_
      exact .pure rehearsed (.bound found)
    | none =>
      refine .congr (reference_of_unbound (same ▸ found)) ?_
      exact .alloc rehearsed (fun _ => List.not_mem_nil.elim) .unbound
  | ap operator operand ihOperator ihOperand =>
    refine (ihOperator rehearsed).bind fun f made₁ store₁ advances₁ composed => ?_
    refine (ihOperand advances₁.rehearsed).bind fun x made₂ store₂ advances₂ composed' => ?_
    have thereF := advances₂.has f (advances₁.rehearsed.composed_has composed)
    have thereX := advances₂.rehearsed.composed_has composed'
    refine (apply_rehearses first depth advances₂.rehearsed thereF thereX).mono
      fun r made₃ store₃ advances₃ acted => ?_
    exact .ap (composed.mono (advances₂.trans advances₃).le) (composed'.mono advances₃.le) acted

/-- How to show all data of a cell accounts for it. -/
def ShowsAll (first : Store) (find : CellId → Eval Tree) : Prop :=
  ∀ {made : List Change} {store : Store} {x : CellId}, Rehearsed first made store → store.Has x →
    Rehearses first made (find x) store fun notes _ => notes.Materialized x

theorem materializeWith_rehearses {find : CellId → Eval Tree} (shows : ShowsAll first find)
    (depth rounds : Nat) (reversed : List Tree) (rehearsed : Rehearsed first made store)
    (there : store.Has x) :
    Rehearses first made (materializeWith (force depth) find rounds reversed x) store
      fun notes _ => notes.Materialized x := by
  induction rounds generalizing reversed x made store with
  | zero => trivial
  | succ rounds ih =>
    refine (force_rehearses first depth rehearsed there).bind
      fun v made₁ store₁ advances₁ learned => ?_
    have rehearsed₁ := advances₁.rehearsed
    cases v with
    | num n => exact .pure rehearsed₁ (.num learned)
    | nil => exact .pure rehearsed₁ (.nil learned)
    | pair head tail =>
      refine (shows rehearsed₁ (rehearsed₁.half_has learned .head)).bind
        fun tree made₂ store₂ advances₂ seen => ?_
      have thereT := advances₂.has tail (rehearsed₁.half_has learned .tail)
      refine (ih _ advances₂.rehearsed thereT).mono fun tree' made₃ store₃ advances₃ seen' => ?_
      have learned := (advances₂.trans advances₃).le.learned learned
      exact .pair learned (seen.mono advances₃.le) seen'
    | func f => trivial

/-- **Showing all data of a cell accounts for it.** -/
theorem materialize_rehearses (first : Store) (depth : Nat) : ShowsAll first (materialize depth) := by
  induction depth with
  | zero =>
    intro made store x rehearsed there
    trivial
  | succ depth ih =>
    intro made store x rehearsed there
    exact materializeWith_rehearses ih depth (depth + 1) [] rehearsed there

/-! ### After the run -/

/-- Nothing has been done yet. -/
theorem Rehearsed.start (represented : first.Represented) : Rehearsed first [] first := by
  obtain ⟨defs, terms, represents⟩ := represented
  have covered : ∀ {cells : List CellId}, terms.Covers cells → ∀ y ∈ cells, first.Has y :=
    fun covers y member => represents.has_iff.mpr (covers y member)
  exact {
    changes := rfl
    tables := rfl
    has := fun x there => there
    values := fun x v there holds => Or.inr (Or.inr ⟨there, holds⟩)
    suspended := fun x s holds => Or.inl ⟨Store.has_of_suspended holds, holds⟩
    added := fun x c member => nomatch member
    unique := fun x c c' member => nomatch member
    replaced := fun x v member => nomatch member
    ran := fun x s v member => nomatch member
    closed := by
      rintro x v (replaced | added | ⟨there, holds⟩)
      · cases replaced
      · cases added
      · exact covered (represents.value there holds).1
    closedWork := fun x s holds => covered (represents.suspended holds).1
    bound := fun table name x found => (represents.bound table name x found).1 }

/-- **The notes of a run account for the store that it leads to**, if this has evolved. -/
theorem Rehearsed.accounts (rehearsed : Rehearsed first made store) (evolves : first.Evolves store) :
    (Notes.since first made).Accounts store := by
  obtain ⟨made', changes, recorded⟩ := evolves.recorded
  obtain rfl : made' = made := List.append_cancel_right (changes.symm.trans rehearsed.changes)
  have sound : ∀ {x v}, (Notes.since first made').learned x v → store.cell x = .value v := by
    rintro x v (replaced | added | ⟨there, holds⟩)
    · exact recorded.holds x v replaced
    · exact recorded.given x v added
    · exact evolves.value there holds
  refine ⟨fun x v => ⟨fun learned => ⟨?_, sound learned⟩, fun holds =>
    rehearsed.values x v holds.1 holds.2⟩, ?_, ?_, ?_⟩
  · rcases learned with replaced | added | ⟨there, -⟩
    · exact rehearsed.replaced x v replaced
    · exact (rehearsed.added x _ added).2
    · exact rehearsed.has x there
  · intro table name x
    rw [Store.table_congr rehearsed.tables]
    rfl
  · intro x v w added learned
    have holds := (recorded.given x v added).symm.trans (sound learned)
    cases holds
    rfl
  · intro x s v added learned
    have turned := recorded.mem_replaced_iff.mpr ⟨Or.inr ⟨s, added⟩, v, sound learned⟩
    obtain ⟨w, replaced⟩ := mem_replacedCells.mp turned
    have holds := (recorded.holds x w replaced).symm.trans (sound learned)
    cases holds
    exact rehearsed.ran x s v added replaced

/-- **An evaluation that answers leaves notes** that account for the store, and say why the cell of
the expression was built and that all its data was seen. -/
theorem eval_rehearses {depth : Nat} {env : TableId} {code answer : String}
    (represented : first.Represented)
    (answered : Interpreter.eval depth env code first = .ok answer later) :
    ∃ (notes : Notes) (e : Expression) (x : CellId), notes.Accounts later ∧ lex code = e.listing ∧
      notes.Composed env e x ∧ notes.Materialized x := by
  have evolves := ((eval_progress depth env code represented).ok answer later answered).1.evolves
  obtain ⟨phrase, listed⟩ := Phrase.exists_tokens (lex code)
  have parses := Reader.parse_eq_build listed depth env
  obtain ⟨x, middle, parsed, rendered⟩ := bind_eq_ok answered
  rw [parses] at parsed
  cases phrase with
  | unfinished opened => exact (bind_fault_ne_ok _ _ _ _ _ parsed).elim
  | followed e token rest => exact (bind_fault_ne_ok _ _ _ _ _ parsed).elim
  | whole e =>
    obtain ⟨made, advances, composed⟩ :=
      Eval.Ensures.ok (build_rehearses depth env e (.start represented)) parsed
    have there := advances.rehearsed.composed_has composed
    obtain ⟨tree, last, materialized, shown⟩ := bind_eq_ok rendered
    obtain ⟨made', advances', seen⟩ :=
      Eval.Ensures.ok (materialize_rehearses first depth advances.rehearsed there) materialized
    obtain rfl : last = later := by
      unfold showTree at shown
      split at shown
      · cases shown
        rfl
      · cases shown
    exact ⟨_, e, x, advances'.rehearsed.accounts evolves, listed, composed.mono advances'.le, seen⟩

end ByNeed
