/-
**What a failed forcing leaves behind.**

Forcing a cell runs its suspension, which asks for other cells on the way, and so on. If this fails,
the cells that were being forced at that moment, from the cell that was asked for first down to the
one whose work failed, keep their suspensions, while the cells that were given their values on the way
keep those.

* `Suspension.Asks`: which cells a suspension that is run asks for, and when;
* `Involves`: the forcings that a forcing comes to, however deep inside;
* `Involves.error`: one of them that fails was in progress at the end, since every one that it was
  part of fails with it;
* `force_invariant`: **what every commitment keeps, forcing keeps**, an invariant for forcing as a whole;
* `Session.failed_force_leaves`: the theorem.

That a cell in progress was not given its value further inside is not seen from the forcings
themselves. It is that the cells given their values on the way precede the cell in the order of
answers, which it does not do itself (`force_error_keeps`).
-/

import ByNeed.Proofs.Respects
import ByNeed.Proofs.Steps

namespace ByNeed

open Reduction
open Store (Progress Quiet)

/-! ### What a suspension asks for -/

/-- **A suspension that is run asks for a cell**: at the moment that the store has become `began`,
the cell is forced. -/
inductive Suspension.Asks (force : CellId → Eval Value) (apply : CellId → CellId → Eval CellId) :
    Suspension → Store → CellId → Store → Prop
  | operator (f x : CellId) (store : Store) : Asks force apply (.apply f x) store f store
  | applied {f x r : CellId} {v : Value} {store later began : Store} :
      force f store = .ok v later → v.applyWith apply x later = .ok r began →
      Asks force apply (.apply f x) store r began
  | pair (side : Half) (x : CellId) (store : Store) : Asks force apply (.half side x) store x store
  | half {side : Half} {x r : CellId} {v : Value} {store later began : Store} :
      force x store = .ok v later → v.half side later = .ok r began →
      Asks force apply (.half side x) store r began
  | bound {table : TableId} {name : String} {x : CellId} {store : Store} :
      (store.table table).lookup name = some x → Asks force apply (.lookup table name) store x store
  | observed (label : String) (x : CellId) (store : Store) :
      Asks force apply (.observe label x) store x { store with trace := label :: store.trace }
  | operand (op : Monop) (x : CellId) (store : Store) : Asks force apply (.monop op x) store x store
  | firstOperand (op : Binop) (x y : CellId) (store : Store) :
      Asks force apply (.binop op x y) store x store
  | secondOperand {op : Binop} {x y : CellId} {v : Value} {n : Int} {store later began : Store} :
      force x store = .ok v later → v.toInt op.name later = .ok n began →
      Asks force apply (.binop op x y) store y began
  | list (x : CellId) (store : Store) : Asks force apply (.isNil x) store x store
  | question {x q : CellId} {f : Func} {store later began : Store} :
      force x store = .ok (.func f) later → questionWith apply f later = .ok q began →
      Asks force apply (.isNil x) store q began
  | shared {a b c f x r : CellId} {store store₁ store₂ began : Store} :
      apply a c store = .ok f store₁ → apply b c store₁ = .ok x store₂ →
      apply f x store₂ = .ok r began → Asks force apply (.share a b c) store r began

/-- **Forcing a cell involves forcing another**, which begins when the store has become `began`. -/
inductive Involves : Nat → CellId → Store → Nat → CellId → Store → Prop
  | here (depth : Nat) (x : CellId) (store : Store) : Involves depth x store depth x store
  | inside {depth d : Nat} {x y z : CellId} {s : Suspension} {store middle began : Store} :
      store.cell x = .suspended s → s.Asks (force depth) (apply depth) store y middle →
      Involves depth y middle d z began → Involves (depth + 1) x store d z began

variable {store later began last : Store} {depth d : Nat} {x y z : CellId} {v : Value}
  {s t : Suspension} {failure : Failure} {force' : CellId → Eval Value}
  {apply' : CellId → CellId → Eval CellId}

/-! ### A forcing that fails -/

theorem answerWith_of_error (name : Option String) (failed : force' x store = .error failure later) :
    ∃ failure', answerWith force' name x store = .error failure' later := by
  have out := Eval.outcome_of_error failed
  rw [answerWith, bind_of_ok out]
  cases failure <;> exact ⟨_, rfl⟩

/-- **What a suspension asks for fails, and so does the suspension**, where this ended. -/
theorem Suspension.Asks.error (asks : s.Asks force' apply' store y began)
    (failed : force' y began = .error failure last) :
    ∃ failure', s.run force' apply' store = .error failure' last := by
  cases asks with
  | operator f x store => exact ⟨failure, bind_of_error failed⟩
  | applied forced applied =>
    exact ⟨failure, (bind_of_ok forced).trans ((bind_of_ok applied).trans failed)⟩
  | pair side x store => exact ⟨failure, bind_of_error failed⟩
  | half forced taken => exact ⟨failure, (bind_of_ok forced).trans ((bind_of_ok taken).trans failed)⟩
  | bound found =>
    refine ⟨failure, ?_⟩
    rw [run_lookup, found]
    exact failed
  | observed label x store => exact ⟨failure, failed⟩
  | operand op x store => exact ⟨failure, bind_of_error failed⟩
  | firstOperand op x y store => exact ⟨failure, bind_of_error failed⟩
  | secondOperand forced number =>
    exact ⟨failure, (bind_of_ok forced).trans ((bind_of_ok number).trans (bind_of_error failed))⟩
  | list x store => exact ⟨failure, bind_of_error (bind_of_error failed)⟩
  | @question x q f store middle began forced put =>
    obtain ⟨failure', failed⟩ := answerWith_of_error f.name failed
    refine ⟨failure', bind_of_error ((bind_of_ok forced).trans ?_)⟩
    exact (bind_of_ok put).trans (bind_of_error failed)
  | shared first second third =>
    exact ⟨failure, (bind_of_ok first).trans ((bind_of_ok second).trans ((bind_of_ok third).trans failed))⟩

/-- **A forcing inside that fails was in progress at the end**: those that it was part of end with
it. -/
theorem Involves.error (involves : Involves depth x store d y began)
    (failed : force d y began = .error failure last) :
    ∃ failure', force depth x store = .error failure' last := by
  induction involves with
  | here depth x store => exact ⟨failure, failed⟩
  | inside suspended asks _ ih =>
    obtain ⟨failure', failed⟩ := asks.error (ih failed).choose_spec
    exact ⟨failure', (force_of_suspended suspended _).trans (bind_of_error failed)⟩

/-! ### What forcing keeps -/

/-- A property of stores is handed from one store to another. -/
def Store.Keeps (holds : Store → Prop) (store later : Store) : Prop :=
  holds store → holds later

section Keeps

variable {holds : Store → Prop}

instance : Std.Refl (Store.Keeps holds) where
  refl _ here := here

instance : Trans (Store.Keeps holds) (Store.Keeps holds) (Store.Keeps holds) where
  trans first second here := second (first here)

theorem Respects.keeps {α : Type} {computation : Eval α}
    (respects : Respects (Store.Keeps holds) computation) (here : holds store) :
    holds (computation.after store) :=
  (respects store).after here

theorem after_answerWith (name : Option String) (x : CellId) (store : Store) :
    (answerWith force' name x).after store = (force' x).after store := by
  cases ended : force' x store with
  | ok v later =>
    have out := Eval.outcome_of_ok ended
    rw [Eval.after_of_ok ended]
    exact Eval.after_of_ok (bind_of_ok out)
  | error failure later =>
    obtain ⟨failure', failed⟩ := answerWith_of_error name ended
    rw [Eval.after_of_error ended, Eval.after_of_error failed]

variable (allows : Allows (Store.Keeps holds))
  (applied : ∀ f x, Respects (Store.Keeps holds) (apply' f x))

include allows applied

/-- Asking for the empty list keeps what forcing the cell and the answer keeps. -/
theorem isNilWith_invariant
    (asked : ∀ {y : CellId} {began : Store}, (Suspension.isNil x).Asks force' apply' store y began →
      holds began → holds ((force' y).after began)) (here : holds store) :
    holds ((isNilWith force' apply' x).after store) := by
  refine Eval.after_bind (asked (.list x store) here) fun v middle forced kept => ?_
  cases v with
  | nil => exact kept
  | pair head tail => exact kept
  | num n => exact kept
  | func f =>
    refine Eval.after_bind ((questionWith_respects allows applied f).keeps kept)
      fun q began put kept' => ?_
    refine Eval.after_bind ?_ fun answer last _ kept'' => ?_
    · rw [after_answerWith]
      exact asked (.question forced put) kept'
    · split
      · exact kept''
      · split <;> exact kept''

/-- **Running a suspension keeps what forcing the cells it asks for keeps.** -/
theorem run_invariant
    (asked : ∀ {y : CellId} {began : Store}, s.Asks force' apply' store y began → holds began →
      holds ((force' y).after began)) (here : holds store) :
    holds ((s.run force' apply').after store) := by
  cases s with
  | apply f x =>
    refine Eval.after_bind (asked (.operator f x store) here) fun v middle forced kept => ?_
    refine Eval.after_bind ((applyWith_respects allows applied v x).keeps kept) fun r began found => ?_
    exact asked (.applied forced found)
  | half side x =>
    refine Eval.after_bind (asked (.pair side x store) here) fun v middle forced kept => ?_
    exact Eval.after_bind ((half_respects side v).keeps kept) fun r began found =>
      asked (.half forced found)
  | lookup table name =>
    have read : holds ((get : Eval Store).after store) := here
    refine Eval.after_bind read fun current middle ended kept => ?_
    cases ended
    cases found : (store.table table).lookup name with
    | some x => exact asked (.bound found) here
    | none => exact here
  | observe label x =>
    have labelled : holds ((Eval.observe label).after store) := allows.observe store label here
    refine Eval.after_bind labelled fun _ began ended kept => ?_
    cases ended
    exact asked (.observed label x store) kept
  | monop op x =>
    refine Eval.after_bind (asked (.operand op x store) here) fun v middle _ kept => ?_
    exact Eval.after_bind ((toInt_respects op.name v).keeps kept) fun n last _ kept => kept
  | binop op x y =>
    refine Eval.after_bind (asked (.firstOperand op x y store) here) fun v middle forced kept => ?_
    refine Eval.after_bind ((toInt_respects op.name v).keeps kept) fun m began number kept => ?_
    refine Eval.after_bind (asked (.secondOperand forced number) kept) fun w middle _ kept => ?_
    refine Eval.after_bind ((toInt_respects op.name w).keeps kept) fun n last _ kept => ?_
    exact (ofExcept_respects _).keeps kept
  | isNil x =>
    exact Eval.after_bind (isNilWith_invariant allows applied asked here) fun _ _ _ kept => kept
  | share a b c =>
    refine Eval.after_bind ((applied a c).keeps here) fun f store₁ first kept => ?_
    refine Eval.after_bind ((applied b c).keeps kept) fun x store₂ second kept => ?_
    exact Eval.after_bind ((applied f x).keeps kept) fun r began third => asked (.shared first second third)

omit applied

/-- **What every commitment keeps, forcing keeps**: each is that of a forcing inside, whose suspension
has produced the value. -/
theorem force_invariant
    (committed : ∀ {d : Nat} {y : CellId} {t : Suspension} {v : Value} {began after : Store},
      Involves depth x store (d + 1) y began → began.cell y = .suspended t →
      t.run (force d) (apply d) began = .ok v after → holds after → holds (after.commit y v))
    (here : holds store) : holds ((force depth x).after store) := by
  induction depth generalizing x store with
  | zero =>
    cases content : store.cell x with
    | value v => rwa [Eval.after_of_ok (force_of_value content 0)]
    | suspended s => rwa [Eval.after_of_error (force_zero_of_suspended content)]
  | succ depth ih =>
    cases content : store.cell x with
    | value v => rwa [Eval.after_of_ok (force_of_value content (depth + 1))]
    | suspended s =>
      have ran : holds ((s.run (force depth) (apply depth)).after store) :=
        run_invariant allows (apply_respects allows depth) (fun asks kept =>
          ih (fun involves => committed (.inside content asks involves)) kept) here
      have same : (force (depth + 1) x).after store =
          (do
            let v ← s.run (force depth) (apply depth)
            Eval.commit x v
            pure v : Eval Value).after store := by
        unfold Eval.after
        rw [force_of_suspended content depth]
      rw [same]
      exact Eval.after_bind ran fun v after ended kept => committed (.here _ x store) content ended kept

end Keeps

/-! ### Forcings inside -/

theorem applyWith_quiet (depth : Nat) (represented : store.Represented)
    (inside : ∀ y ∈ v.cells, store.Has y) (there : store.Has x) :
    Moves Quiet (v.applyWith (apply depth) x) store fun r later => later.Has r := by
  obtain ⟨defs, terms, represents⟩ := represented
  have covers : terms.Covers v.cells := fun y member => represents.covers (inside y member)
  refine (applyWith_ensures (apply_ensures depth) represents covers (.term v) there).moves ?_ ?_
  · rintro r later ⟨terms', built, there, -⟩
    exact ⟨built.quiet, there⟩
  · rintro failure later ⟨-, terms', built⟩
    exact built.quiet

theorem questionWith_quiet (depth : Nat) {f : Func} (represented : store.Represented)
    (inside : ∀ y ∈ f.held, store.Has y) :
    Moves Quiet (questionWith (apply depth) f) store fun q later => later.Has q := by
  obtain ⟨defs, terms, represents⟩ := represented
  have covers : terms.Covers f.held := fun y member => represents.covers (inside y member)
  refine (questionWith_ensures (apply_ensures depth) represents covers (.term (.func f))).moves ?_ ?_
  · rintro q later ⟨terms', built, there, -⟩
    exact ⟨built.quiet, there⟩
  · rintro failure later ⟨-, terms', built⟩
    exact built.quiet

/-- The half of a pair changes nothing. -/
theorem half_eq_ok {side : Half} (taken : v.half side store = .ok y later) :
    later = store ∧ y ∈ v.cells := by
  cases v with
  | pair head tail =>
    cases side <;>
    · cases taken
      exact ⟨rfl, by simp [Value.cells]⟩
  | num n => cases side <;> cases taken
  | nil => cases side <;> cases taken
  | func f => cases side <;> cases taken

theorem toInt_eq_ok {operation : String} {n : Int} (number : v.toInt operation store = .ok n later) :
    later = store := by
  cases v <;> cases number
  rfl

theorem apply_quiet (depth : Nat) {f : CellId} (represented : store.Represented)
    (head : store.Has f) (there : store.Has x) :
    Moves Quiet (apply depth f x) store fun r later => later.Has r := by
  obtain ⟨defs, terms, represents⟩ := represented
  refine (apply_ensures depth represents head there).moves ?_ ?_
  · rintro r later ⟨terms', built, there, -⟩
    exact ⟨built.quiet, there⟩
  · rintro failure later ⟨-, terms', built⟩
    exact built.quiet

/-- What is asked for is there, and the store has made progress until then. -/
theorem asks_progress (asks : s.Asks (force depth) (apply depth) store y began)
    (represented : store.Represented) (inside : ∀ x ∈ s.cells, store.Has x) :
    store.Progress began ∧ began.Has y := by
  have still : store.Progress store := (Quiet.refl represented).toProgress
  have forced : ∀ {x v later}, store.Has x → force depth x store = .ok v later →
      store.Progress later ∧ ∀ y ∈ v.cells, later.Has y :=
    fun there ended => (force_progress depth represented there).ok _ _ ended
  cases asks with
  | operator => exact ⟨still, inside _ (by simp [Suspension.cells])⟩
  | @applied f x r v _ later _ ended applied =>
    obtain ⟨progress, cells⟩ := forced (inside f (by simp [Suspension.cells])) ended
    have there := progress.evolves.has (inside x (by simp [Suspension.cells]))
    obtain ⟨quiet, there⟩ := (applyWith_quiet depth progress.represented cells there).ok _ _ applied
    exact ⟨Trans.trans progress quiet.toProgress, there⟩
  | pair => exact ⟨still, inside _ (by simp [Suspension.cells])⟩
  | half ended taken =>
    obtain ⟨progress, cells⟩ := forced (inside _ (by simp [Suspension.cells])) ended
    obtain ⟨rfl, member⟩ := half_eq_ok taken
    exact ⟨progress, cells _ member⟩
  | bound found =>
    obtain ⟨defs, terms, represents⟩ := represented
    exact ⟨still, (represents.bound _ _ _ found).1⟩
  | observed label =>
    have there : store.Has y := inside y (by simp [Suspension.cells])
    have quiet : store.Quiet { store with trace := label :: store.trace } :=
      .aside (represented.congr rfl rfl) rfl rfl rfl
    exact ⟨quiet.toProgress, there⟩
  | operand => exact ⟨still, inside _ (by simp [Suspension.cells])⟩
  | firstOperand => exact ⟨still, inside _ (by simp [Suspension.cells])⟩
  | @secondOperand op x _ v n _ later _ ended number =>
    obtain ⟨progress, -⟩ := forced (inside x (by simp [Suspension.cells])) ended
    obtain rfl := toInt_eq_ok number
    exact ⟨progress, progress.evolves.has (inside y (by simp [Suspension.cells]))⟩
  | list => exact ⟨still, inside _ (by simp [Suspension.cells])⟩
  | question ended put =>
    obtain ⟨progress, cells⟩ := forced (inside _ (by simp [Suspension.cells])) ended
    obtain ⟨quiet, there⟩ := (questionWith_quiet depth progress.represented cells).ok _ _ put
    exact ⟨Trans.trans progress quiet.toProgress, there⟩
  | @shared a b c f x r _ store₁ store₂ _ first second third =>
    have third' := inside c (by simp [Suspension.cells])
    obtain ⟨quiet₁, there₁⟩ :=
      (apply_quiet depth represented (inside a (by simp [Suspension.cells])) third').ok _ _ first
    obtain ⟨quiet₂, there₂⟩ := (apply_quiet depth quiet₁.represented
      (quiet₁.evolves.has (inside b (by simp [Suspension.cells])))
      (quiet₁.evolves.has third')).ok _ _ second
    obtain ⟨quiet₃, there₃⟩ := (apply_quiet depth quiet₂.represented (quiet₂.evolves.has there₁)
      there₂).ok _ _ third
    have whole : store.Quiet began := Trans.trans (Trans.trans quiet₁ quiet₂) quiet₃
    exact ⟨whole.toProgress, there₃⟩

/-- What a suspension refers to is there. -/
theorem Store.Represented.inside (represented : store.Represented)
    (suspended : store.cell x = .suspended s) : ∀ y ∈ s.cells, store.Has y := by
  obtain ⟨defs, terms, represents⟩ := represented
  exact fun y member => represents.has_iff.mpr ((represents.suspended suspended).1 y member)

/-- A forcing inside begins with a cell that is there, in a store that has made progress until
then. -/
theorem Involves.progress (involves : Involves depth x store d y began)
    (represented : store.Represented) (there : store.Has x) :
    store.Progress began ∧ began.Has y := by
  induction involves with
  | here depth x store => exact ⟨(Quiet.refl represented).toProgress, there⟩
  | inside suspended asks _ ih =>
    obtain ⟨first, middle⟩ := asks_progress asks represented (represented.inside suspended)
    obtain ⟨second, last⟩ := ih first.represented middle
    exact ⟨Trans.trans first second, last⟩

/-! ### What a failed forcing leaves -/

/-- **A cell whose forcing fails keeps its suspension**: what was given its value on the way precedes
it. -/
theorem force_error_keeps (represented : store.Represented)
    (failed : force depth x store = .error failure later) :
    (∃ s, store.cell x = .suspended s ∧ later.cell x = .suspended s) ∧ store.Evolves later ∧
      later.tables = store.tables := by
  cases content : store.cell x with
  | value v =>
    rw [force_of_value content depth] at failed
    cases failed
  | suspended s =>
    obtain ⟨defs, terms, represents⟩ := represented
    have there := Store.has_of_suspended content
    obtain ⟨terms', grows, -, below⟩ := (force_ensures depth represents there).error failed
    have kept : ¬ store.Turned later x := fun turned => Precedes.irrefl (below x turned)
    refine ⟨⟨s, rfl, ?_⟩, grows.evolves, grows.tables⟩
    rw [grows.evolves.cell_of_not_turned there kept, content]

/-- A cell held a suspension before, or was added with it. -/
def Store.Suspends (store : Store) (made : List Change) (x : CellId) (s : Suspension) : Prop :=
  store.cell x = .suspended s ∨ .added x (.suspended s) ∈ made

/-- What a cell holds at a moment in between, if it is suspended, it held before or was added with. -/
theorem Store.Evolves.suspends {made : List Change} (evolves : store.Evolves began)
    (suspended : began.cell y = .suspended t) (grown : began.changes <:+ later.changes)
    (changes : later.changes = made ++ store.changes) : store.Suspends made y t := by
  by_cases there : store.Has y
  · left
    cases content : store.cell y with
    | value v =>
      rw [evolves.value there content] at suspended
      cases suspended
    | suspended s =>
      rcases evolves.suspended content with still | ⟨v, holds⟩
      · rw [← still, suspended]
      · rw [holds] at suspended
        cases suspended
  · right
    obtain ⟨before, made_eq, recorded⟩ := evolves.recorded
    obtain ⟨c, added⟩ := recorded.new y there (Store.has_of_suspended suspended)
    have notReplaced : y ∉ replacedCells before := by
      intro member
      obtain ⟨v, replaced⟩ := mem_replacedCells.mp member
      rw [recorded.holds y v replaced] at suspended
      cases suspended
    have content := recorded.added y c added notReplaced
    rw [suspended] at content
    obtain ⟨since, whole⟩ := grown
    rw [made_eq, changes, ← List.append_assoc] at whole
    rw [← List.append_cancel_right whole, content]
    exact List.mem_append_right _ added

/-- **A cell was given its value by its own suspension**, which was run while another was forced, and
produced it. -/
def Earned (depth : Nat) (x : CellId) (store : Store) (made : List Change) (y : CellId) (v : Value) :
    Prop :=
  ∃ d t began after, Involves depth x store (d + 1) y began ∧ store.Suspends made y t ∧
    began.cell y = .suspended t ∧ t.run (force d) (apply d) began = .ok v after

/-- **What a failed forcing leaves behind**, with the changes that were made on the way. -/
structure LeavesUnforced (depth : Nat) (x : CellId) (store : Store) (made : List Change)
    (later : Store) : Prop where
  /-- The cell keeps its suspension. -/
  itself : ∃ s, store.cell x = .suspended s ∧ later.cell x = .suspended s
  /-- A cell whose forcing was in progress keeps the suspension that it held before, or was added
  with. -/
  inProgress : ∀ d y began failure last, Involves depth x store d y began →
    force d y began = .error failure last →
    ∃ t, store.Suspends made y t ∧ began.cell y = .suspended t ∧ later.cell y = .suspended t
  /-- A cell that held a value holds it. -/
  values : ∀ y v, store.Has y → store.cell y = .value v → later.cell y = .value v
  /-- The definitions are as they were. -/
  tables : later.tables = store.tables
  /-- A cell that was suspended, before or when it was added, and holds a value now was given it by
  its own suspension. -/
  earned : ∀ y v, store.WasSuspended made y → later.cell y = .value v → Earned depth x store made y v

/-- Every replacement on the record since is that of a forcing inside, whose suspension produced the
value. -/
def Accounts (depth : Nat) (x : CellId) (store later : Store) : Prop :=
  ∃ made, later.changes = made ++ store.changes ∧ ∀ y v, .replaced y v ∈ made →
    ∃ d t began after, Involves depth x store (d + 1) y began ∧ began.cell y = .suspended t ∧
      t.run (force d) (apply d) began = .ok v after ∧ began.changes <:+ later.changes

/-- One more change, which is no replacement or one with a forcing inside to it. -/
theorem Accounts.change (accounts : Accounts depth x store later) (change : Change)
    (changes : last.changes = change :: later.changes)
    (reason : ∀ y v, change = .replaced y v → ∃ d t began after,
      Involves depth x store (d + 1) y began ∧ began.cell y = .suspended t ∧
        t.run (force d) (apply d) began = .ok v after ∧ began.changes <:+ last.changes) :
    Accounts depth x store last := by
  obtain ⟨made, changes', found⟩ := accounts
  refine ⟨change :: made, by rw [changes, changes', List.cons_append], fun y v member => ?_⟩
  rcases List.mem_cons.mp member with same | member
  · exact reason y v same.symm
  · obtain ⟨d, t, began, after, involves, suspended, ran, grown⟩ := found y v member
    refine ⟨d, t, began, after, involves, suspended, ran, grown.trans ?_⟩
    rw [changes]
    exact List.suffix_cons _ _

theorem accounts_allows (depth : Nat) (x : CellId) (store : Store) :
    Allows (Store.Keeps (Accounts depth x store)) where
  alloc _ c accounts := accounts.change (.added _ c) rfl fun _ _ other => nomatch other
  observe _ _ accounts := accounts

/-- **Forcing replaces only what a forcing inside has run.** -/
theorem force_accounts (depth : Nat) (represented : store.Represented) (there : store.Has x) :
    Accounts depth x store ((force depth x).after store) := by
  refine force_invariant (accounts_allows depth x store)
    (fun {d y t v began after} involves suspended ran accounts => ?_)
    ⟨[], rfl, fun _ _ member => nomatch member⟩
  obtain ⟨progress, inside⟩ := involves.progress represented there
  have forced := force_of_run suspended ran
  have evolves := ((force_progress (d + 1) progress.represented inside).ok v _ forced).1.evolves
  obtain ⟨made, changes, -⟩ := evolves.recorded
  refine accounts.change (.replaced y v) rfl fun y' v' same => ?_
  cases same
  exact ⟨d, t, began, after, involves, suspended, ran, made, changes.symm⟩

/-- **A failed forcing leaves the cells in progress unforced.** -/
theorem force_error_leaves (represented : store.Represented)
    (failed : force depth x store = .error failure later) :
    ∃ made, later.changes = made ++ store.changes ∧ LeavesUnforced depth x store made later := by
  obtain ⟨⟨s, suspended, kept⟩, evolves, tables⟩ := force_error_keeps represented failed
  have there := Store.has_of_suspended suspended
  have accounts := force_accounts depth represented there
  rw [Eval.after_of_error failed] at accounts
  obtain ⟨made, changes, found⟩ := accounts
  obtain ⟨made', changes', recorded⟩ := evolves.recorded
  have same : made' = made := List.append_cancel_right (changes'.symm.trans changes)
  subst same
  refine ⟨made', changes, ⟨s, suspended, kept⟩, ?_, fun y v => evolves.value, tables, ?_⟩
  · intro d y began failure' last involves fails
    obtain ⟨failure'', ended⟩ := involves.error fails
    rw [failed] at ended
    cases ended
    obtain ⟨progress, -⟩ := involves.progress represented there
    obtain ⟨⟨t, held, keeps⟩, further, -⟩ := force_error_keeps progress.represented fails
    obtain ⟨since, grown, -⟩ := further.recorded
    exact ⟨t, progress.evolves.suspends held ⟨since, grown.symm⟩ changes, held, keeps⟩
  · intro y v was holds
    obtain ⟨w, replaced⟩ := mem_replacedCells.mp (recorded.mem_replaced_iff.mpr ⟨was, v, holds⟩)
    have value := recorded.holds y w replaced
    rw [holds] at value
    cases value
    obtain ⟨d, t, began, after, involves, held, ran, grown⟩ := found y v replaced
    obtain ⟨progress, -⟩ := involves.progress represented there
    exact ⟨d, t, began, after, involves, progress.evolves.suspends held grown changes, held, ran⟩

/-- **A failed forcing leaves the cell unforced**, in every session: so it leaves every cell whose
forcing was in progress, and what was given its value on the way was given it by its own
suspension. -/
theorem Session.failed_force_leaves (history : List (Nat × Session.Step))
    (failed : force depth x (Session.reached history).store = .error failure later) :
    ∃ made, later.changes = made ++ (Session.reached history).store.changes ∧
      LeavesUnforced depth x (Session.reached history).store made later :=
  force_error_leaves (Session.sound_reached history).represented failed

/-- Adding a number to the function that a function is asked with fails, four forcings deep, after the
number has been found: the number is kept, and the cell that asked is as it was. -/
theorem Session.failed_force_leaves_question :
    let store := (Session.reached [(20, .ofCommand (.environment (.load
      "g = ap inc 4\nh = ap ap c ap add g 2\nx = ap isnil h")))]).store
    let later := (force 20 ⟨25⟩).after store
    (force 20 ⟨25⟩).verdict store =
        .error (.fault (.isNilFailed (some "c") (.notANumber "add" .function))) ∧
      store.cell ⟨20⟩ = .suspended (.monop .inc ⟨19⟩) ∧ later.cell ⟨20⟩ = .value (.num 5) ∧
      later.cell ⟨25⟩ = .suspended (.isNil ⟨24⟩) ∧
      ∃ made, later.changes = made ++ store.changes ∧ LeavesUnforced 20 ⟨25⟩ store made later := by
  intro store later
  have failed : (force 20 ⟨25⟩).verdict store =
      .error (.fault (.isNilFailed (some "c") (.notANumber "add" .function))) := by
    decide +kernel
  exact ⟨failed, by decide +kernel, by decide +kernel, by decide +kernel,
    Session.failed_force_leaves _ (Eval.eq_error_of_verdict failed)⟩

end ByNeed
