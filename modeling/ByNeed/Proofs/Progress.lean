/-
**What computations do to a store.**

Seen from outside, a computation on a store that represents terms leaves a store that represents
terms, has evolved from the first, and counts the cells that were forced on the way (`Progress`).
Reading, applying and defining force nothing (`Quiet`).

`Moves` says of a computation, however it ends, that the states before and after it are related; for
a relation that can be followed by itself this goes from the parts of a computation to the whole
(`Moves.bind`, `Moves.mapM`, `Moves.forM`), and from reading and binding to batches of definitions
(`LoadSpec.load`).
-/

import ByNeed.Interpreter
import ByNeed.Proofs.Representation.Definitions
import ByNeed.Proofs.Representation.Traversal

namespace ByNeed

open Reduction

/-! ### Computations that relate states -/

section Moves

variable {ε σ α β : Type} {R : σ → σ → Prop} {s : σ}

/-- **However the computation ends, the states before and after it are related**, and `good` holds of
its answer. -/
structure Moves (R : σ → σ → Prop) (computation : EStateM ε σ α) (s : σ) (good : α → σ → Prop) :
    Prop where
  ok : ∀ a later, computation s = .ok a later → R s later ∧ good a later
  error : ∀ failure later, computation s = .error failure later → R s later

variable {good : α → σ → Prop} {good' : β → σ → Prop}

theorem Moves.pure {a : α} (related : R s s) (holds : good a s) :
    Moves R (Pure.pure a : EStateM ε σ α) s good := by
  constructor
  · intro b later ended
    cases ended
    exact ⟨related, holds⟩
  · exact fun _ _ ended => nomatch ended

theorem Moves.throw {failure : ε} (related : R s s) :
    Moves R (MonadExcept.throw failure : EStateM ε σ α) s good := by
  constructor
  · exact fun _ _ ended => nomatch ended
  · intro failure' later ended
    cases ended
    exact related

/-- The relation may be weakened. -/
theorem Moves.imp {R' : σ → σ → Prop} {computation : EStateM ε σ α}
    (moves : Moves R computation s good) (weaker : ∀ later, R s later → R' s later) :
    Moves R' computation s good := by
  constructor
  · intro a later ended
    obtain ⟨related, holds⟩ := moves.ok a later ended
    exact ⟨weaker later related, holds⟩
  · exact fun failure later ended => weaker later (moves.error failure later ended)

/-- What is made of the answer does not matter. -/
theorem Moves.of_map {computation : EStateM ε σ α} {f : α → β}
    (moves : Moves R (computation >>= fun a => Pure.pure (f a)) s good') :
    Moves R computation s fun a later => good' (f a) later :=
  ⟨fun a later ended => moves.ok (f a) later (bind_of_ok ended),
    fun failure later ended => moves.error failure later (bind_of_error ended)⟩

/-- **A computation that goes on with another.** -/
theorem Moves.bind [Trans R R R] {computation : EStateM ε σ α} {next : α → EStateM ε σ β}
    (moves : Moves R computation s good)
    (rest : ∀ a later, R s later → good a later → Moves R (next a) later good') :
    Moves R (computation >>= next) s good' := by
  constructor
  · intro b last ended
    obtain ⟨a, later, first, second⟩ := bind_eq_ok ended
    obtain ⟨related, holds⟩ := moves.ok a later first
    obtain ⟨related', holds'⟩ := (rest a later related holds).ok b last second
    exact ⟨Trans.trans related related', holds'⟩
  · intro failure last ended
    rcases bind_eq_error ended with first | ⟨a, later, first, second⟩
    · exact moves.error failure last first
    · obtain ⟨related, holds⟩ := moves.ok a later first
      exact Trans.trans related ((rest a later related holds).error failure last second)

/-- The answers of a computation for every element of a list. -/
theorem Moves.mapM [Trans R R R] {f : α → EStateM ε σ β} {items : List α} (related : R s s)
    (settled : ∀ {s s'}, R s s' → R s' s') (kept : ∀ {b s s'}, R s s' → good' b s → good' b s')
    (each : ∀ item ∈ items, ∀ later, R s later → Moves R (f item) later good') :
    Moves R (items.mapM f) s fun found later => ∀ b ∈ found, good' b later := by
  induction items generalizing s with
  | nil => exact .pure related fun _ member => nomatch member
  | cons item rest ih =>
    rw [List.mapM_cons]
    refine (each item List.mem_cons_self s related).bind fun b later moved holds => ?_
    refine (ih (settled moved) fun item member last moved' =>
      each item (List.mem_cons_of_mem _ member) last (Trans.trans moved moved')).bind
      fun found last moved' all => .pure (settled moved') ?_
    intro c member
    rcases List.mem_cons.mp member with rfl | member
    · exact kept moved' holds
    · exact all c member

/-- A computation for every element of a list. -/
theorem Moves.forM [Trans R R R] {f : α → EStateM ε σ PUnit} {items : List α} (related : R s s)
    (settled : ∀ {s s'}, R s s' → R s' s')
    (each : ∀ item ∈ items, ∀ later, R s later → Moves R (f item) later fun _ _ => True) :
    Moves R (items.forM f) s fun _ _ => True := by
  induction items generalizing s with
  | nil => exact .pure related trivial
  | cons item rest ih =>
    show Moves R (f item >>= fun _ => rest.forM f) s _
    refine (each item List.mem_cons_self s related).bind fun _ later moved _ => ?_
    exact ih (settled moved) fun item member last moved' =>
      each item (List.mem_cons_of_mem _ member) last (Trans.trans moved moved')

end Moves

/-- What a computation ensures says how it moves. -/
theorem Eval.Ensures.moves {α : Type} {R : Store → Store → Prop} {computation : Eval α}
    {store : Store} {good good' : α → Store → Prop} {bad : Failure → Store → Prop}
    (ensures : computation.Ensures store good bad)
    (answers : ∀ a later, good a later → R store later ∧ good' a later)
    (failures : ∀ failure later, bad failure later → R store later) :
    Moves R computation store good' :=
  ⟨fun a later ended => answers a later (ensures.ok ended),
    fun failure later ended => failures failure later (ensures.error ended)⟩

/-- The store after a computation is related to the one before it. -/
theorem Moves.after {α : Type} {R : Store → Store → Prop} {computation : Eval α} {store : Store}
    {good : α → Store → Prop} (moves : Moves R computation store good) :
    R store (computation.after store) := by
  unfold Eval.after
  cases ended : computation store with
  | ok a later => exact (moves.ok a later ended).1
  | error failure later => exact moves.error failure later ended

/-! ### Progress -/

namespace Store

/-- A store represents terms under some glossary. -/
def Represented (store : Store) : Prop :=
  ∃ defs terms, Represents defs terms store

/-- Only the cells and the tables matter. -/
theorem Represented.congr {store later : Store} (represented : store.Represented)
    (cells : later.cells = store.cells) (tables : later.tables = store.tables) :
    later.Represented := by
  obtain ⟨defs, terms, represents⟩ := represented
  exact ⟨defs, terms, represents.congr cells (table_congr tables)⟩

/-- **A store makes progress**: it evolves, counts what is forced, and represents terms again. -/
structure Progress (store later : Store) : Prop where
  represented : later.Represented
  evolves : store.Evolves later
  counts : store.Counts later

/-- **A store makes progress quietly**: nothing is forced. -/
structure Quiet (store later : Store) : Prop extends Progress store later where
  forced : later.forced = store.forced

variable {store later last : Store}

theorem Quiet.refl (represented : store.Represented) : store.Quiet store :=
  ⟨⟨represented, .refl, .refl store⟩, rfl⟩

instance : Trans Progress Progress Progress where
  trans first second :=
    ⟨second.represented, first.evolves.trans second.evolves, first.counts.trans second.counts⟩

instance : Trans Quiet Quiet Quiet where
  trans first second :=
    ⟨Trans.trans first.toProgress second.toProgress, second.forced.trans first.forced⟩

/-- Tables may change if the names still stand for something. -/
theorem Quiet.aside (represented : later.Represented) (cells : later.cells = store.cells)
    (forced : later.forced = store.forced) (changes : later.changes = store.changes) :
    store.Quiet later :=
  ⟨⟨represented, .aside .refl cells changes, [], changes, forced⟩, forced⟩

end Store

open Store (Progress Quiet)

variable {defs : Glossary} {terms terms' : Terms} {store later : Store} {env : TableId}
  {x y : CellId} {v : Value} {name : String}

theorem Built.quiet (built : Built defs terms store terms' later) : store.Quiet later :=
  ⟨⟨⟨defs, terms', built.represents⟩, built.builds.evolves, built.builds.counts⟩,
    built.builds.forced_eq⟩

theorem Grows.progress (grows : Grows defs terms store terms' later) : store.Progress later :=
  ⟨⟨defs, terms', grows.represents⟩, grows.evolves, grows.counts⟩

theorem Grown.progress (grown : Grown defs terms store later) : store.Progress later := by
  obtain ⟨terms', grows⟩ := grown
  exact grows.progress

/-! ### Building -/

theorem value_quiet (represented : store.Represented) (inside : ∀ y ∈ v.cells, store.Has y) :
    Moves Quiet (Eval.value v) store fun x later => later.Has x := by
  obtain ⟨defs, terms, represents⟩ := represented
  have covers : terms.Covers v.cells := fun y member => represents.covers (inside y member)
  refine (represents.value_ensures covers (.term v)).moves ?_ fun _ _ (never : False) => never.elim
  rintro x later ⟨terms', built, there, -⟩
  exact ⟨built.quiet, there⟩

/-- A number is added. -/
theorem number_quiet (represented : store.Represented) (n : Int) :
    Moves Quiet (Eval.value (.num n)) store fun x later => later.Has x :=
  value_quiet represented fun _ member => nomatch member

/-- A cell that is observed stands for the identity applied to the cell it forces. -/
theorem observe_quiet (represented : store.Represented) (there : store.Has x) (label : String) :
    Moves Quiet (Eval.suspend (.observe label x)) store fun y later => later.Has y := by
  obtain ⟨defs, terms, represents⟩ := represented
  have stands : (Cell.suspended (.observe label x)).StandsFor defs terms
      (.app (.unary (.itself none)) (terms.of x)) := by
    refine ⟨?_, .become (terms.of x), .demand (.answer _) (.refl _), .refl _⟩
    simpa [Terms.Covers, Suspension.cells] using represents.covers there
  constructor
  · intro y later ended
    cases ended
    exact ⟨(Built.alloc represents stands).quiet, Store.has_alloc store _⟩
  · intro failure later ended
    cases ended

theorem applyAll_quiet (depth : Nat) {args : List CellId} (represented : store.Represented)
    (there : store.Has x) (inside : ∀ y ∈ args, store.Has y) :
    Moves Quiet (applyAll depth x args) store fun y later => later.Has y := by
  obtain ⟨defs, terms, represents⟩ := represented
  refine (ApplySpec.fold (apply_ensures depth) represents there (.refl _) inside).moves ?_ ?_
  · rintro y later ⟨terms', built, there, -⟩
    exact ⟨built.quiet, there⟩
  · rintro failure later ⟨-, terms', built⟩
    exact built.quiet

theorem takeHalf_quiet (side : Half) (represented : store.Represented) (there : store.Has x) :
    Moves Quiet (takeHalf side x) store fun y later => later.Has y := by
  obtain ⟨defs, terms, represents⟩ := represented
  refine (takeHalf_ensures (g := .unary (.half side)) represents (.answer _) there).moves ?_ ?_
  · rintro y later ⟨terms', built, there, -⟩
    exact ⟨built.quiet, there⟩
  · rintro failure later ⟨-, terms', built⟩
    exact built.quiet

theorem parse_quiet (depth : Nat) (env : TableId) (code : String)
    (represented : store.Represented) :
    Moves Quiet (Reader.parse depth env code) store fun x later => later.Has x := by
  obtain ⟨defs, terms, represents⟩ := represented
  refine (parse_ensures depth code represents).moves ?_ ?_
  · rintro x later ⟨terms', e, built, -, -, there, -⟩
    exact ⟨built.quiet, there⟩
  · rintro failure later ⟨terms', built, -⟩
    exact built.quiet

theorem readExpr_quiet (depth : Nat) (env : TableId) (tokens : List Token)
    (represented : store.Represented) :
    Moves Quiet (Reader.readExpr depth env [] tokens) store fun result later =>
      ∀ x, result.1 = .ok x → later.Has x := by
  obtain ⟨defs, terms, represents⟩ := represented
  refine (readExpr_ensures depth represents .nil fun _ member => nomatch member).moves ?_
    fun _ _ never => never.elim
  rintro ⟨outcome, rest⟩ later ⟨terms', built, holds⟩
  refine ⟨built.quiet, ?_⟩
  rintro x rfl
  obtain ⟨e, -, -, there, -⟩ := holds
  exact there

theorem readFrom_quiet (depth : Nat) (env : TableId) (stream : TokenStream)
    (represented : store.Represented) :
    Moves Quiet (Reader.readFrom depth env [] stream) store fun result later =>
      ∀ x, result.1 = .ok x → later.Has x := by
  have read := readExpr_quiet depth env stream.left represented
  rw [← Reader.readFrom_left] at read
  exact read.of_map

theorem point_quiet (represented : store.Represented) (m n : Int) :
    Moves Quiet (Interpreter.point m n) store fun x later => later.Has x := by
  refine (number_quiet represented m).bind fun first store₁ quiet₁ there₁ => ?_
  refine (number_quiet quiet₁.represented n).bind fun second store₂ quiet₂ there₂ => ?_
  refine value_quiet quiet₂.represented fun y member => ?_
  simp only [Value.cells, List.mem_cons, List.not_mem_nil, or_false] at member
  rcases member with rfl | rfl
  · exact quiet₂.evolves.has there₁
  · exact there₂

theorem interact_quiet (depth : Nat) {program state : CellId} (represented : store.Represented)
    (there : store.Has program) (there' : store.Has state) (m n : Int) :
    Moves Quiet (Interpreter.interact depth program state m n) store fun x later => later.Has x := by
  refine (point_quiet represented m n).bind fun argument store₁ quiet inside => ?_
  refine applyAll_quiet depth quiet.represented (quiet.evolves.has there) fun y member => ?_
  simp only [List.mem_cons, List.not_mem_nil, or_false] at member
  rcases member with rfl | rfl
  · exact quiet.evolves.has there'
  · exact inside

/-! ### Defining -/

/-- A binding in a place with no table changes nothing. -/
theorem table_bindName_outside (outside : ¬ env.index < store.tables.size) (t : TableId) :
    (store.bindName env name x).table t = store.table t := by
  have same : store.tables.modify env.index (· ++ [(name, x)]) = store.tables := by
    apply Array.ext
    · simp
    · intro i first second
      have other : env.index ≠ i := by
        rintro rfl
        exact outside second
      simp [Array.getElem_modify, other]
  simp [Store.bindName, Store.table, same]

theorem bindName_represented (represented : store.Represented)
    (unbound : (store.table env).lookup name = none) (there : store.Has x) :
    (store.bindName env name x).Represented := by
  obtain ⟨defs, terms, represents⟩ := represented
  by_cases inside : env.index < store.tables.size
  · exact ⟨_, terms, represents.bindName inside unbound there (.refl _)⟩
  · exact ⟨defs, terms, represents.congr rfl (table_bindName_outside inside)⟩

theorem define_quiet (represented : store.Represented) (there : store.Has x) :
    Moves Quiet (Environment.define env name x) store fun _ _ => True := by
  have ensures : (Environment.define env name x).Ensures store (fun _ later => store.Quiet later)
      fun _ later => store.Quiet later := by
    refine define_ensures (fun unbound => ?_) fun _ _ => .refl represented
    exact .aside (bindName_represented represented unbound there) rfl rfl rfl
  exact ensures.moves (fun _ _ quiet => ⟨quiet, trivial⟩) fun _ _ quiet => quiet

theorem Store.Quiet.settled (quiet : store.Quiet later) : later.Quiet later :=
  .refl quiet.represented

theorem defineAll_quiet {items : List (String × CellId)} (represented : store.Represented)
    (inside : ∀ item ∈ items, store.Has item.2) :
    Moves Quiet (Environment.defineAll env items) store fun _ _ => True :=
  .forM (.refl represented) Store.Quiet.settled fun item member _ quiet =>
    define_quiet quiet.represented (quiet.evolves.has (inside item member))

/-- A relation of stores that reading an expression and binding a name to a cell keep to. -/
structure LoadSpec (R : Store → Store → Prop) : Prop where
  settled : ∀ {store later}, R store later → R later later
  parse : ∀ {store} (depth : Nat) (env : TableId) (code : String), R store store →
    Moves R (Reader.parse depth env code) store fun x later => later.Has x
  define : ∀ {store env name x}, R store store → store.Has x →
    Moves R (Environment.define env name x) store fun _ _ => True

section Load

variable {R : Store → Store → Prop} [Trans R R R]

theorem LoadSpec.line (spec : LoadSpec R) (depth number : Nat) (line : List Char)
    (related : R store store) :
    Moves R (Definitions.defineLine depth env number line) store fun _ _ => True := by
  unfold Definitions.defineLine
  cases Definitions.Line.ofChars number line with
  | error reason => exact .throw related
  | ok content =>
    cases content with
    | blank => exact .pure related trivial
    | definition name body =>
      refine (spec.parse depth env _ related).bind fun x store₁ first there => ?_
      refine (spec.define (spec.settled first) there).bind fun _ store₂ second _ => ?_
      exact .pure (spec.settled second) trivial

theorem LoadSpec.lines (spec : LoadSpec R) (depth number count : Nat) (lines : List (List Char))
    (related : R store store) :
    Moves R (Definitions.defineLines depth env number count lines) store fun _ _ => True := by
  induction lines generalizing number count store with
  | nil => exact .pure related trivial
  | cons line rest ih =>
    rw [Definitions.defineLines]
    refine (spec.line depth number line related).bind fun defined later moved _ => ?_
    exact ih (number + 1) (count + defined) (spec.settled moved)

/-- **A batch of definitions** keeps to what its expressions and its bindings keep to. -/
theorem LoadSpec.load (spec : LoadSpec R) (depth : Nat) (env : TableId) (code : String)
    (related : R store store) :
    Moves R (Definitions.load depth env code) store fun _ _ => True :=
  spec.lines depth 1 0 _ related

end Load

theorem load_quiet (depth : Nat) (code : String) (represented : store.Represented) :
    Moves Quiet (Definitions.load depth env code) store fun _ _ => True := by
  have spec : LoadSpec Quiet :=
    ⟨fun quiet => quiet.settled, fun depth env code quiet => parse_quiet depth env code
      quiet.represented, fun quiet there => define_quiet quiet.represented there⟩
  exact spec.load depth env code (.refl represented)

theorem table_allocTable (t : TableId) : store.allocTable.2.table t = store.table t := by
  rcases t with ⟨i⟩
  simp only [Store.allocTable, Store.table, Array.getD_eq_getD_getElem?, Array.getElem?_push]
  split
  · next same =>
    subst same
    simp
  · rfl

theorem createTable_quiet (represented : store.Represented) :
    Moves Quiet Environment.create store fun _ _ => True := by
  obtain ⟨defs, terms, represents⟩ := represented
  have quiet : store.Quiet store.allocTable.2 :=
    .aside ⟨defs, terms, represents.congr rfl table_allocTable⟩ rfl rfl rfl
  constructor
  · intro env later ended
    cases ended
    exact ⟨quiet, trivial⟩
  · exact fun _ _ ended => nomatch ended

theorem create_quiet (represented : store.Represented) :
    Moves Quiet Builtins.create store fun _ _ => True := by
  refine (createTable_quiet represented).bind fun env store₁ quiet₁ _ => ?_
  have registers : Moves Quiet (Builtins.register env) store₁ fun _ _ => True := by
    refine .forM quiet₁.settled Store.Quiet.settled fun item member store₂ quiet₂ => ?_
    refine (value_quiet quiet₂.represented fun y cell => ?_).bind fun x store₃ quiet₃ there =>
      define_quiet quiet₃.represented there
    rw [builtins_bare item member] at cell
    cases cell
  exact registers.bind fun _ store₂ quiet₂ _ => .pure quiet₂.settled trivial

/-- What a name is bound to is there. -/
theorem lookup_quiet (env : TableId) (name : String) (represented : store.Represented) :
    Moves Quiet (Environment.lookup env name) store fun found later =>
      ∀ x, found = some x → later.Has x := by
  constructor
  · intro found later ended
    cases ended
    refine ⟨.refl represented, fun x bound => ?_⟩
    obtain ⟨defs, terms, represents⟩ := represented
    exact (represents.bound env name x bound).1
  · exact fun _ _ ended => nomatch ended

/-! ### Forcing -/

theorem Store.Progress.settled (progress : store.Progress later) : later.Progress later :=
  (Quiet.refl progress.represented).toProgress

theorem force_progress (depth : Nat) (represented : store.Represented) (there : store.Has x) :
    Moves Progress (force depth x) store fun v later => ∀ y ∈ v.cells, later.Has y := by
  obtain ⟨defs, terms, represents⟩ := represented
  have grown := ForceSpec.grown (force_ensures depth) represents there
  refine grown.moves ?_ fun _ _ grown => grown.progress
  rintro v later ⟨terms', grows, cells⟩
  exact ⟨grows.progress, cells⟩

theorem toInt_progress (represented : store.Represented) (v : Value) (operation : String) :
    Moves Progress (v.toInt operation) store fun _ _ => True := by
  have still : store.Progress store := (Quiet.refl represented).toProgress
  cases v with
  | num n => exact .pure still trivial
  | _ => exact .throw still

theorem isNil_progress (depth : Nat) (represented : store.Represented) (there : store.Has x) :
    Moves Progress (isNil depth x) store fun _ _ => True := by
  obtain ⟨defs, terms, represents⟩ := represented
  exact (isNil_ensures depth represents there).moves (fun _ _ grown => ⟨grown.progress, trivial⟩)
    fun _ _ grown => grown.progress

theorem elements_progress (depth : Nat) (represented : store.Represented) (there : store.Has x) :
    Moves Progress (elements depth x) store fun found later => ∀ y ∈ found, later.Has y := by
  obtain ⟨defs, terms, represents⟩ := represented
  exact (elements_ensures depth represents there).moves
    (fun _ _ ended => ⟨ended.1.progress, ended.2⟩) fun _ _ grown => grown.progress

theorem materialize_progress (depth : Nat) (represented : store.Represented)
    (there : store.Has x) : Moves Progress (materialize depth x) store fun _ _ => True := by
  obtain ⟨defs, terms, represents⟩ := represented
  exact (materialize_ensures depth represents there).moves
    (fun _ _ ended => ⟨ended.1.progress, trivial⟩) fun _ _ ended => ended.1.progress

theorem render_progress (depth : Nat) (represented : store.Represented) (there : store.Has x) :
    Moves Progress (render depth x) store fun _ _ => True := by
  obtain ⟨defs, terms, represents⟩ := represented
  exact (render_ensures depth represents there).moves
    (fun _ _ ended => ⟨ended.1.progress, trivial⟩) fun _ _ ended => ended.1.progress

theorem source_progress (depth : Nat) (represented : store.Represented) (there : store.Has x) :
    Moves Progress (source depth x) store fun _ _ => True := by
  obtain ⟨defs, terms, represents⟩ := represented
  have tokens : Moves Progress (sourceTokens depth x) store fun _ _ => True :=
    (sourceTokens_ensures depth represents there).moves
      (fun _ _ grown => ⟨grown.progress, trivial⟩) fun _ _ grown => grown.progress
  exact tokens.bind fun _ _ progress _ => .pure progress.settled trivial

theorem eval_progress (depth : Nat) (env : TableId) (code : String)
    (represented : store.Represented) :
    Moves Progress (Interpreter.eval depth env code) store fun _ _ => True := by
  have parsed := (parse_quiet depth env code represented).imp fun _ quiet => quiet.toProgress
  exact parsed.bind fun x later progress there => render_progress depth progress.represented there

theorem materializeCode_progress (depth : Nat) (env : TableId) (code : String)
    (represented : store.Represented) :
    Moves Progress (Interpreter.materialize depth env code) store fun _ _ => True := by
  have parsed := (parse_quiet depth env code represented).imp fun _ quiet => quiet.toProgress
  exact parsed.bind fun x later progress there =>
    materialize_progress depth progress.represented there

end ByNeed
