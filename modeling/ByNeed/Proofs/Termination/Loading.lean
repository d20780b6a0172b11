/-
**Loading comes to an end.**

As long as nothing has been forced, every value refers to cells that were there before it, and so
unfolds to finitely many values (`Store.Founded`). Reading a text keeps it so: it adds cells on top
of others and binds names to cells that are there. Each application that it builds comes to an end
then, and with it the whole text does, however much is shared under a name.

* `Completes`: a computation comes to an end, and leaves the store well-founded;
* `build_completes`, `parse_completes`, `load_completes`: expressions, texts and batches;
* `Loaded`: the stores that are reached without forcing, all of which are well-founded
  (`founded_of_loaded`);
* `loading_ends`: **reading a text comes to an end**.
-/

import ByNeed.Proofs.Grammar
import ByNeed.Proofs.Termination.Apply

namespace ByNeed

namespace Store

variable {store later last : Store} {env : TableId} {name : String} {x : CellId} {c : Cell}

/-! ### Well-founded stores -/

/-- **A store is well-founded**: its cells unfold to finitely many values, and its names are bound to
cells that are there. -/
structure Founded (store : Store) : Prop where
  unfolds : ∀ x, store.Has x → ∃ n, store.Unfolds x n
  bound : ∀ env name x, (store.table env).lookup name = some x → store.Has x

theorem founded_empty : Store.empty.Founded where
  unfolds _ there := (Nat.not_lt_zero _ there).elim
  bound _ _ _ bound := nomatch bound

/-- A cell is added on top of the cells that its value refers to. -/
theorem Founded.alloc (founded : store.Founded) (parts : ∀ y ∈ c.parts, store.Has y) :
    (store.alloc c).2.Founded where
  unfolds x there := by
    rcases (has_alloc_iff store c).mp there with before | rfl
    · obtain ⟨n, unfolds⟩ := founded.unfolds x before
      exact ⟨n, unfolds.mono (.alloc c .refl)⟩
    -- The cells that the new one refers to were there before, so there is no way back to it.
    · have each : ∀ y ∈ c.parts, ∃ n, store.Unfolds y n := fun y member =>
        founded.unfolds y (parts y member)
      choose! weight each using each
      exact ⟨_, unfolds_alloc each⟩
  bound env name x bound := (has_alloc_iff store c).mpr (Or.inl (founded.bound env name x bound))

theorem Founded.layers (founded : store.Founded) (layers : store.Layers later) :
    later.Founded := by
  induction layers with
  | refl => exact founded
  | alloc c _ parts ih => exact ih.alloc parts

/-- Tables may change if the names are still bound to cells that are there. -/
theorem Founded.aside (founded : store.Founded) (same : later.cells = store.cells)
    (bound : ∀ env name x, (later.table env).lookup name = some x → store.Has x) :
    later.Founded where
  unfolds x there := by
    obtain ⟨n, unfolds⟩ := founded.unfolds x ((has_congr same).mp there)
    exact ⟨n, unfolds.congr same⟩
  bound env name x found := (has_congr same).mpr (bound env name x found)

theorem Founded.bindName (founded : store.Founded) (there : store.Has x) :
    (store.bindName env name x).Founded := by
  refine founded.aside rfl fun env' name' y found => ?_
  by_cases inside : env.index < store.tables.size
  · rw [table_bindName inside] at found
    by_cases same : env' = env
    · rw [if_pos same, List.lookup_append] at found
      rcases Option.or_eq_some_iff.mp found with before | ⟨-, added⟩
      · exact founded.bound env name' y before
      · have bound : (name', y) ∈ [(name, x)] := mem_of_lookup added
        cases List.mem_singleton.mp bound
        exact there
    · rw [if_neg same] at found
      exact founded.bound env' name' y found
  · rw [table_bindName_outside inside] at found
    exact founded.bound env' name' y found

/-- **A store is left well-founded**, with the cells that were there. -/
structure Lays (store later : Store) : Prop where
  founded : later.Founded
  has : ∀ {x}, store.Has x → later.Has x

theorem Lays.refl (founded : store.Founded) : store.Lays store :=
  ⟨founded, id⟩

instance : Trans Lays Lays Lays where
  trans first second := ⟨second.founded, fun there => second.has (first.has there)⟩

theorem Founded.lays (founded : store.Founded) (layers : store.Layers later) : store.Lays later :=
  ⟨founded.layers layers, layers.builds.evolves.has⟩

theorem Founded.lays_alloc (founded : store.Founded) (parts : ∀ y ∈ c.parts, store.Has y) :
    store.Lays (store.alloc c).2 :=
  founded.lays (.alloc c .refl parts)

end Store

open Store (Founded Lays)

variable {α β : Type} {store later : Store} {env : TableId} {name : String} {f x : CellId}

/-! ### Computations that complete -/

/-- **A computation completes**: it comes to an end, and at every depth it leaves the store
well-founded, with `good` holding of what it answers. -/
structure Completes (computation : Nat → Eval α) (store : Store) (good : α → Store → Prop) :
    Prop where
  ends : Ends computation store
  moves : ∀ depth, Moves Lays (computation depth) store good

variable {computation : Nat → Eval α} {good : α → Store → Prop} {good' : β → Store → Prop}

theorem Completes.pure {a : α} (founded : store.Founded) (holds : good a store) :
    Completes (fun _ => Pure.pure a) store good :=
  ⟨.const nofun, fun _ => .pure (.refl founded) holds⟩

theorem Completes.fault (founded : store.Founded) (reason : Fault) :
    Completes (fun _ => (Eval.fault reason : Eval α)) store good :=
  ⟨.const nofun, fun _ => .throw (.refl founded)⟩

/-- A new cell, on top of the cells that its value refers to. -/
theorem Completes.alloc {c : Cell} (founded : store.Founded) (parts : ∀ y ∈ c.parts, store.Has y) :
    Completes (fun _ => Eval.alloc c) store fun x later => later.Has x := by
  refine ⟨.const nofun, fun _ => ⟨fun x later ended => ?_, fun _ _ ended => nomatch ended⟩⟩
  cases ended
  exact ⟨founded.lays_alloc parts, Store.has_alloc store c⟩

/-- **A computation that goes on with another.** -/
theorem Completes.bind (completes : Completes computation store good) (next : α → Nat → Eval β)
    (rest : ∀ a later, store.Lays later → good a later → Completes (next a) later good') :
    Completes (fun depth => computation depth >>= fun a => next a depth) store good' where
  ends := completes.ends.bind next fun depth a later answered =>
    have moved := (completes.moves depth).ok a later answered
    (rest a later moved.1 moved.2).ends
  moves depth := (completes.moves depth).bind fun a later lays holds =>
    (rest a later lays holds).moves depth

/-! ### Building expressions -/

/-- An application. -/
theorem apply_completes (founded : store.Founded) (operator : store.Has f)
    (argument : store.Has x) :
    Completes (fun depth => apply depth f x) store fun y later => later.Has y := by
  obtain ⟨m, unfoldsF⟩ := founded.unfolds f operator
  obtain ⟨n, unfoldsX⟩ := founded.unfolds x argument
  refine ⟨⟨m + n, apply_endsBy unfoldsF unfoldsX⟩, fun depth => ?_⟩
  refine (apply_fits depth unfoldsF unfoldsX).moves ?_ fun _ later layers => founded.lays layers
  rintro y later ⟨layers, k, -, unfolds⟩
  exact ⟨founded.lays layers, unfolds.has⟩

/-- A half of a cell. -/
theorem takeHalf_lays (founded : store.Founded) (there : store.Has x) (side : Half) :
    Moves Lays (takeHalf side x) store fun y later => later.Has y := by
  obtain ⟨n, unfolds⟩ := founded.unfolds x there
  have spans : store.Spans [x] (n + 0) :=
    unfolds.spans_cons ⟨fun _ => 0, fun _ member => (nomatch member), rfl⟩
  refine (spans.takeHalf_fits List.mem_cons_self side).moves ?_ fun _ _ halts => founded.lays halts.1
  rintro y later ⟨layers, k, -, unfolds⟩
  exact ⟨founded.lays layers, unfolds.has⟩

/-- What a name is bound to. -/
theorem lookup_completes (founded : store.Founded) (env : TableId) (name : String) :
    Completes (fun _ => Environment.lookup env name) store fun found later =>
      ∀ x, found = some x → later.Has x := by
  refine ⟨.const nofun, fun _ => ⟨fun found later ended => ?_, fun _ _ ended => nomatch ended⟩⟩
  cases ended
  exact ⟨.refl founded, founded.bound env name⟩

theorem reference_completes (founded : store.Founded) (env : TableId) (name : String) :
    Completes (fun _ => Environment.reference env name) store fun x later => later.Has x := by
  refine (lookup_completes founded env name).bind _ fun found later lays there => ?_
  cases found with
  | some x => exact .pure lays.founded (there x rfl)
  | none => exact .alloc lays.founded fun _ member => nomatch member

/-- The integer of a numeral. -/
theorem read_completes (founded : store.Founded) (numeral : Numeral) :
    Completes (fun _ => Eval.ofExcept numeral.read) store fun _ _ => True := by
  unfold Numeral.read
  split
  · exact .pure founded trivial
  · exact ⟨.const nofun, fun _ => .throw (.refl founded)⟩

/-- **Building an expression completes.** -/
theorem build_completes (env : TableId) (e : Expression) (founded : store.Founded) :
    Completes (fun depth => e.build depth env) store fun x later => later.Has x := by
  induction e generalizing store with
  | number numeral =>
    exact (read_completes founded numeral).bind (fun n _ => Eval.value (.num n))
      fun n later lays _ => .alloc lays.founded fun _ member => nomatch member
  | symbol name => exact reference_completes founded env name
  | ap operator operand ihOperator ihOperand =>
    refine (ihOperator founded).bind (fun f depth => operand.build depth env >>= apply depth f)
      fun f store₁ lays₁ thereF => ?_
    -- The operand is built on top of the operator, which unfolds to what it did.
    refine (ihOperand lays₁.founded).bind (fun x depth => apply depth f x)
      fun x store₂ lays₂ thereX => ?_
    exact apply_completes lays₂.founded (lays₂.has thereF) thereX

/-- Building what has been read of opened applications completes. -/
theorem opened_completes (env : TableId) (opened : Expression.Opened) (founded : store.Founded) :
    Completes (fun depth => opened.build depth env) store fun _ _ => True := by
  induction opened generalizing store with
  | nil => exact .pure founded trivial
  | cons frame outer ih =>
    cases frame with
    | none =>
      exact (ih founded).bind (fun pending _ => pure (none :: pending))
        fun pending later lays _ => .pure lays.founded trivial
    | some operator =>
      refine (ih founded).bind
        (fun pending depth => operator.build depth env >>= fun f => pure (some f :: pending))
        fun pending store₁ lays₁ _ => ?_
      exact (build_completes env operator lays₁.founded).bind
        (fun f _ => pure (some f :: pending)) fun f store₂ lays₂ _ => .pure lays₂.founded trivial

/-! ### Reading texts -/

/-- **Reading a text completes**, whatever the text is. -/
theorem parse_completes (env : TableId) (code : String) (founded : store.Founded) :
    Completes (fun depth => Reader.parse depth env code) store fun x later => later.Has x := by
  obtain ⟨phrase, listed⟩ := Phrase.exists_tokens (lex code)
  simp only [Reader.parse_eq_build listed]
  cases phrase with
  | whole e => exact build_completes env e founded
  | unfinished opened =>
    exact (opened_completes env opened founded).bind (fun _ _ => Eval.fault .unexpectedEnd)
      fun _ later lays _ => .fault lays.founded _
  | followed e token rest =>
    exact (build_completes env e founded).bind
      (fun _ _ => Eval.fault (.excessiveToken token.text)) fun _ later lays _ =>
        .fault lays.founded _

theorem define_completes (founded : store.Founded) (there : store.Has x) :
    Completes (fun _ => Environment.define env name x) store fun _ _ => True := by
  refine (lookup_completes founded env name).bind _ fun found later lays _ => ?_
  cases found with
  | some y => exact .fault lays.founded _
  | none =>
    refine ⟨.const nofun, fun _ => ⟨fun _ last ended => ?_, fun _ _ ended => nomatch ended⟩⟩
    cases ended
    exact ⟨⟨lays.founded.bindName (lays.has there), id⟩, trivial⟩

theorem defineLine_completes (number : Nat) (line : List Char) (founded : store.Founded) :
    Completes (fun depth => Definitions.defineLine depth env number line) store fun _ _ => True := by
  unfold Definitions.defineLine
  cases Definitions.Line.ofChars number line with
  | error reason => exact .fault founded reason
  | ok content =>
    cases content with
    | blank => exact .pure founded trivial
    | definition name body =>
      refine (parse_completes env (String.ofList body) founded).bind
        (fun x _ => do Environment.define env (String.ofList name) x; pure 1)
        fun x store₁ lays₁ there => ?_
      exact (define_completes lays₁.founded there).bind (fun _ _ => pure 1)
        fun _ store₂ lays₂ _ => .pure lays₂.founded trivial

theorem defineLines_completes (number count : Nat) (lines : List (List Char))
    (founded : store.Founded) :
    Completes (fun depth => Definitions.defineLines depth env number count lines) store
      fun _ _ => True := by
  induction lines generalizing number count store with
  | nil => exact .pure founded trivial
  | cons line rest ih =>
    exact (defineLine_completes number line founded).bind
      (fun defined depth => Definitions.defineLines depth env (number + 1) (count + defined) rest)
      fun defined later lays _ => ih (number + 1) (count + defined) lays.founded

/-- **Reading a batch of definitions completes**, whatever the text is. -/
theorem load_completes (env : TableId) (code : String) (founded : store.Founded) :
    Completes (fun depth => Definitions.load depth env code) store fun _ _ => True :=
  defineLines_completes 1 0 _ founded

/-! ### The stores that are reached without forcing -/

/-- What can be done without forcing. -/
inductive LoadStep
  /-- Carry out a batch of definitions. -/
  | load (env : TableId) (code : String)
  /-- Read an expression. -/
  | parse (env : TableId) (code : String)
  /-- Bind a name to a cell. -/
  | define (env : TableId) (name : String) (x : CellId)
  /-- Apply a cell to a cell. -/
  | apply (f x : CellId)
  /-- Take a half of a cell. -/
  | half (side : Half) (x : CellId)

/-- The cells that a step is about. -/
def LoadStep.cells : LoadStep → List CellId
  | .load _ _ => []
  | .parse _ _ => []
  | .define _ _ x => [x]
  | .apply f x => [f, x]
  | .half _ x => [x]

/-- The store after a step, however it ended. -/
def LoadStep.after (depth : Nat) (step : LoadStep) (store : Store) : Store :=
  match step with
  | .load env code => (Definitions.load depth env code).after store
  | .parse env code => (Reader.parse depth env code).after store
  | .define env name x => (Environment.define env name x).after store
  | .apply f x => (ByNeed.apply depth f x).after store
  | .half side x => (takeHalf side x).after store

/-- **The stores that are reached without forcing**, from one that has the builtins, by any steps on
cells that are there, each with the depth that it may nest to. -/
inductive Loaded : Store → Prop
  | fresh : Loaded Interpreter.fresh
  | step {store : Store} (depth : Nat) (step : LoadStep) : Loaded store →
      (∀ x ∈ step.cells, store.Has x) → Loaded (step.after depth store)

/-- A step leaves a store well-founded. -/
theorem LoadStep.founded (depth : Nat) (step : LoadStep) (founded : store.Founded)
    (inside : ∀ x ∈ step.cells, store.Has x) : (step.after depth store).Founded := by
  cases step with
  | load env code => exact ((load_completes env code founded).moves depth).after.founded
  | parse env code => exact ((parse_completes env code founded).moves depth).after.founded
  | define env name x =>
    exact ((define_completes founded (inside x (.head []))).moves depth).after.founded
  | apply f x =>
    exact ((apply_completes founded (inside f (.head _)) (inside x (.tail f (.head [])))).moves
      depth).after.founded
  | half side x => exact (takeHalf_lays founded (inside x (.head [])) side).after.founded

theorem createTable_lays (founded : store.Founded) :
    Moves Lays Environment.create store fun _ _ => True := by
  have bound : ∀ env name x, (store.allocTable.2.table env).lookup name = some x → store.Has x := by
    intro env name x found
    rw [table_allocTable] at found
    exact founded.bound env name x found
  refine ⟨fun env later ended => ?_, fun _ _ ended => nomatch ended⟩
  cases ended
  exact ⟨⟨founded.aside rfl bound, id⟩, trivial⟩

/-- A store that has only the builtins is well-founded. -/
theorem founded_fresh : Interpreter.fresh.Founded := by
  have creates : Moves Lays Builtins.create Store.empty fun _ _ => True := by
    refine (createTable_lays Store.founded_empty).bind fun env store₁ lays₁ _ => ?_
    have registers : Moves Lays (Builtins.register env) store₁ fun _ _ => True := by
      refine .forM (.refl lays₁.founded) (fun lays => .refl lays.founded)
        fun item member store₂ lays₂ => ?_
      have bare : ∀ y ∈ (Cell.value item.2).parts, store₂.Has y := by
        intro y part
        rw [Cell.parts, builtins_bare item member] at part
        cases part
      refine ((Completes.alloc lays₂.founded bare).moves 0).bind fun x store₃ lays₃ there => ?_
      exact (define_completes lays₃.founded there).moves 0
    exact registers.bind fun _ store₂ lays₂ _ => .pure (.refl lays₂.founded) trivial
  exact creates.after.founded

/-- **Without forcing, every value unfolds to finitely many.** -/
theorem founded_of_loaded (loaded : Loaded store) : store.Founded := by
  induction loaded with
  | fresh => exact founded_fresh
  | step depth step _ inside ih => exact step.founded depth ih inside

/-- **Reading a text comes to an end**, be it an expression or a batch of definitions, in every store
that is reached without forcing. -/
theorem loading_ends (loaded : Loaded store) (env : TableId) (code : String) :
    Ends (fun depth => Reader.parse depth env code) store ∧
      Ends (fun depth => Definitions.load depth env code) store :=
  have founded := founded_of_loaded loaded
  ⟨(parse_completes env code founded).ends, (load_completes env code founded).ends⟩

/-- Pairs and swapping functions that mention themselves and each other are applied to one
another. -/
theorem loading_ends_shared :
    let step : LoadStep := .load Interpreter.home
      "p = ap ap cons q p\nq = ap ap c p q\nr = ap ap b q q"
    let store := step.after 20 Interpreter.fresh
    Loaded store ∧
      (Reader.parse 20 Interpreter.home "ap r ap q r").verdict store = .ok ⟨41⟩ ∧
      Ends (fun depth => Reader.parse depth Interpreter.home "ap r ap q r") store ∧
      Ends (fun depth => Definitions.load depth Interpreter.home "x = ap q ap r r\nt = 1") store := by
  intro step store
  have loaded : Loaded store := .step 20 step .fresh fun _ member => nomatch member
  exact ⟨loaded, by decide +kernel, (loading_ends loaded Interpreter.home _).1,
    (loading_ends loaded Interpreter.home _).2⟩

end ByNeed
