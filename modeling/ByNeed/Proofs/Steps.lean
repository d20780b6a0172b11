/-
**What the steps of a session do.**

The store of a session always represents terms, and its registers hold cells that are there
(`Sound`). This is what makes forcing a cell leave the cell suspended until its value is known, and
it is kept by every step, whether it succeeds or fails:

* `Advances`: what a part of a step does to a session;
* `onStore_advances`, `forcing_advances`: computations on the store, without and with an evaluator;
* `executeWith_advances`: every command, from those for each kind;
* `perform_advances`, `sound_reached`: every step, and every session that steps lead to.
-/

import ByNeed.Proofs.Progress
import ByNeed.Session

namespace ByNeed.Session

open Store (Progress Quiet)

/-! ### Sound sessions -/

/-- **A session is sound** if its store represents terms and its registers hold cells that are
there. -/
structure Sound (session : Session) : Prop where
  represented : session.store.Represented
  registers : ∀ name x, (name, x) ∈ session.cells → session.store.Has x

/-- The count of an evaluator after changes that were made with the evaluator of a step. -/
def tally (step : Step) (made : List Change) (name : String) (count : Nat) : Nat :=
  if name = step.evaluator then count + (replacedCells made).length else count

/-- **What a part of a step does to a session**: it leaves it sound, its store evolves, and the counts
of evaluators that are not made anew grow as the record of changes says. -/
structure Advances (step : Step) (session later : Session) : Prop where
  sound : later.Sound
  evolves : session.store.Evolves later.store
  tallies : ∃ made, later.store.changes = made ++ session.store.changes ∧
    ∀ name, step.command ≠ .newEvaluator name →
      later.evaluators.lookup name = (session.evaluators.lookup name).map (tally step made name)

variable {α : Type} {step : Step} {session later last : Session} {x : CellId} {name : String}

theorem tally_nil (step : Step) (name : String) : tally step [] name = id := by
  funext count
  unfold tally
  split <;> rfl

/-- The store is as it was, and so are the counts. -/
theorem Advances.aside (sound : later.Sound) (store : later.store = session.store)
    (evaluators : ∀ name, step.command ≠ .newEvaluator name →
      later.evaluators.lookup name = session.evaluators.lookup name) :
    Advances step session later := by
  refine ⟨sound, store ▸ .refl, [], by rw [store, List.nil_append], fun name kept => ?_⟩
  rw [evaluators name kept, tally_nil, Option.map_id, id]

theorem Advances.refl (sound : session.Sound) : Advances step session session :=
  .aside sound rfl fun _ _ => rfl

theorem Advances.trans (first : Advances step session later)
    (second : Advances step later last) : Advances step session last := by
  obtain ⟨made, changes, tallies⟩ := first.tallies
  obtain ⟨more, changes', tallies'⟩ := second.tallies
  refine ⟨second.sound, first.evolves.trans second.evolves, more ++ made,
    by rw [changes', changes, List.append_assoc], fun name kept => ?_⟩
  rw [tallies' name kept, tallies name kept, Option.map_map]
  congr 1
  funext count
  unfold tally
  simp only [Function.comp_apply, replacedCells_append, List.length_append]
  split <;> omega

instance : Trans (Advances step) (Advances step) (Advances step) where
  trans := Advances.trans

theorem Advances.settled (advances : Advances step session later) : Advances step later later :=
  .refl advances.sound

theorem Advances.has (advances : Advances step session later) (there : session.store.Has x) :
    later.store.Has x :=
  advances.evolves.has there

/-! ### Registers -/

theorem get_advances (sound : session.Sound) :
    Moves (Advances step) (get : Work Session) session fun seen later =>
      seen = session ∧ later = session := by
  constructor
  · intro seen later ended
    cases ended
    exact ⟨.refl sound, rfl, rfl⟩
  · exact fun _ _ ended => nomatch ended

/-- What is found under a name in a registry of the session. -/
theorem find_advances (registry : Session → Registry α) {good : α → Session → Prop}
    (sound : session.Sound) (found : ∀ a, (registry session).lookup name = some a → good a session) :
    Moves (Advances step) (do find (registry (← get)) name) session good := by
  refine (get_advances sound).bind ?_
  rintro seen later - ⟨seenHere, laterHere⟩
  rw [seenHere, laterHere]
  unfold find
  cases bound : (registry session).lookup name with
  | some a => exact .pure (.refl sound) (found a bound)
  | none => exact .throw (.refl sound)

theorem environment_advances (sound : session.Sound) :
    Moves (Advances step) (environment name) session fun _ _ => True :=
  find_advances Session.environments sound fun _ _ => trivial

theorem tree_advances (sound : session.Sound) :
    Moves (Advances step) (tree name) session fun _ _ => True :=
  find_advances Session.trees sound fun _ _ => trivial

theorem stream_advances (sound : session.Sound) :
    Moves (Advances step) (stream name) session fun _ _ => True :=
  find_advances Session.streams sound fun _ _ => trivial

/-- A reply that is made from the answer of a computation. -/
theorem reply_advances {β : Type} {work : Work α} {reply : α → β} {good : α → Session → Prop}
    (moves : Moves (Advances step) work session good) :
    Moves (Advances step) (work >>= fun a => pure (reply a)) session fun _ _ => True :=
  moves.bind fun _ _ advances _ => .pure advances.settled trivial

theorem requireEvaluator_advances (sound : session.Sound) :
    Moves (Advances step) (requireEvaluator name) session fun _ _ => True := by
  have count : Moves (Advances step) (evaluatorCount name) session fun _ _ => True :=
    find_advances Session.evaluators sound fun _ _ => trivial
  exact reply_advances count

/-- A register holds a cell that is there. -/
theorem cell_advances (sound : session.Sound) :
    Moves (Advances step) (cell name) session fun x later => later.store.Has x :=
  find_advances Session.cells sound fun x bound => sound.registers name x (mem_of_lookup bound)

/-- Several registers hold cells that are there. -/
theorem cells_advances {names : List String} (sound : session.Sound) :
    Moves (Advances step) (names.mapM cell) session fun found later =>
      ∀ x ∈ found, later.store.Has x :=
  Moves.mapM (.refl sound) Advances.settled Advances.has fun _ _ _ advances =>
    cell_advances advances.sound

/-- The same of registers that are paired with names. -/
theorem items_advances {items : List (String × String)} (sound : session.Sound) :
    Moves (Advances step) (items.mapM fun (name, x) => do return (name, ← cell x)) session
      fun found later => ∀ item ∈ found, later.store.Has item.2 := by
  refine Moves.mapM (.refl sound) Advances.settled Advances.has fun item _ later advances => ?_
  exact (cell_advances advances.sound).bind fun x last advances' there =>
    .pure advances'.settled there

theorem modify_advances {change : Session → Session}
    (advances : Advances step session (change session)) :
    Moves (Advances step) (modify change : Work Unit) session fun _ _ => True := by
  constructor
  · intro _ later ended
    cases ended
    exact ⟨advances, trivial⟩
  · exact fun _ _ ended => nomatch ended

theorem setCell_advances (sound : session.Sound) (there : session.store.Has x) :
    Moves (Advances step) (setCell name x) session fun _ _ => True := by
  refine modify_advances (.aside ⟨sound.represented, fun name' y member => ?_⟩ rfl fun _ _ => rfl)
  rcases List.mem_cons.mp member with same | member
  · cases same
    exact there
  · exact sound.registers name' y member

theorem setEnvironment_advances {env : TableId} (sound : session.Sound) :
    Moves (Advances step) (setEnvironment name env) session fun _ _ => True :=
  modify_advances (.aside ⟨sound.represented, sound.registers⟩ rfl fun _ _ => rfl)

theorem setTree_advances {found : Tree} (sound : session.Sound) :
    Moves (Advances step) (setTree name found) session fun _ _ => True :=
  modify_advances (.aside ⟨sound.represented, sound.registers⟩ rfl fun _ _ => rfl)

theorem setStream_advances {tokens : TokenStream} (sound : session.Sound) :
    Moves (Advances step) (setStream name tokens) session fun _ _ => True :=
  modify_advances (.aside ⟨sound.represented, sound.registers⟩ rfl fun _ _ => rfl)

theorem emit_advances {event : Event} (sound : session.Sound) :
    Moves (Advances step) (emit event) session fun _ _ => True :=
  modify_advances (.aside ⟨sound.represented, sound.registers⟩ rfl fun _ _ => rfl)

theorem ifNamed_advances {target : Option String} {work : String → Work Unit} (sound : session.Sound)
    (moves : ∀ name, Moves (Advances step) (work name) session fun _ _ => True) :
    Moves (Advances step) (ifNamed target work) session fun _ _ => True := by
  cases target with
  | some name => exact moves name
  | none => exact .pure (.refl sound) trivial

/-! ### The store -/

theorem onStore_of_ok {computation : Eval α} {a : α} {store : Store}
    (ended : computation session.store = .ok a store) :
    onStore computation session = .ok a { session with store := store } := by
  simp only [onStore, ended]

theorem onStore_of_error {computation : Eval α} {failure : Failure} {store : Store}
    (ended : computation session.store = .error failure store) :
    onStore computation session = .error (.failed failure) { session with store := store } := by
  simp only [onStore, ended]

/-- **A computation that forces nothing.** -/
theorem onStore_advances {computation : Eval α} {good : α → Store → Prop} (sound : session.Sound)
    (quiet : Moves Quiet computation session.store good) :
    Moves (Advances step) (onStore computation) session fun a later => good a later.store := by
  have advances : ∀ store, session.store.Quiet store →
      Advances step session { session with store := store } := by
    intro store quiet
    obtain ⟨made, changes, forced⟩ := quiet.counts
    refine ⟨⟨quiet.represented, fun name x member => quiet.evolves.has (sound.registers name x member)⟩,
      quiet.evolves, made, changes, fun name _ => ?_⟩
    have none : (replacedCells made).length = 0 := by
      have same := quiet.forced
      omega
    have still : tally step made name = id := by
      funext count
      unfold tally
      rw [none]
      split <;> rfl
    rw [still, Option.map_id, id]
  constructor
  · intro a later ended
    cases middle : computation session.store with
    | ok b store =>
      rw [onStore_of_ok middle] at ended
      cases ended
      obtain ⟨moved, holds⟩ := quiet.ok a store middle
      exact ⟨advances store moved, holds⟩
    | error failure store =>
      rw [onStore_of_error middle] at ended
      cases ended
  · intro refusal later ended
    cases middle : computation session.store with
    | ok b store =>
      rw [onStore_of_ok middle] at ended
      cases ended
    | error failure store =>
      rw [onStore_of_error middle] at ended
      cases ended
      exact advances store (quiet.error failure store middle)

/-- The same of a computation that answers a cell. -/
theorem onStore_cell {computation : Eval CellId} (sound : session.Sound)
    (quiet : Moves Quiet computation session.store fun x later => later.Has x) :
    Moves (Advances step) (onStore computation) session fun x later => later.store.Has x :=
  onStore_advances sound quiet

theorem ofExcept_advances {result : Except Failure α} {good : α → Session → Prop}
    (sound : session.Sound) (holds : ∀ a, result = .ok a → good a session) :
    Moves (Advances step) (ofExcept result) session good := by
  cases result with
  | ok a => exact .pure (.refl sound) (holds a rfl)
  | error failure => exact .throw (.refl sound)

theorem reading_advances {read : Store → Except Failure α} (sound : session.Sound) :
    Moves (Advances step) (reading read) session fun _ _ => True := by
  refine (get_advances sound).bind ?_
  rintro seen later - ⟨seenHere, laterHere⟩
  rw [seenHere, laterHere]
  exact ofExcept_advances sound fun _ _ => trivial

/-- The store with another count. -/
def recount (store : Store) (count : Nat) : Store :=
  { store with forced := count }

/-- The session after a computation that counts what it forces for an evaluator. -/
def counted (session : Session) (evaluator : String) (store : Store) : Session :=
  { session with store := store, evaluators := session.evaluators.set evaluator store.forced }

theorem evaluatorCount_eq (session : Session) (name : String) :
    evaluatorCount name session =
      match session.evaluators.lookup name with
      | some count => .ok count session
      | none => .error (.unset name) session := by
  show find session.evaluators name session = _
  unfold find
  cases session.evaluators.lookup name <;> rfl

theorem forcing_of_outcome {computation : Eval α} {count : Nat} {result : Except Failure α}
    {store : Store} (set : session.evaluators.lookup name = some count)
    (outcome : Eval.outcome computation (recount session.store count) = .ok result store) :
    forcing name computation session = ofExcept result (session.counted name store) := by
  have found : evaluatorCount name session = .ok count session := by
    rw [evaluatorCount_eq, set]
  have stored : onStore (do
      modify fun store => { store with forced := count }
      Eval.outcome computation) session = .ok result { session with store := store } :=
    onStore_of_ok outcome
  rw [forcing, bind_of_ok found, bind_of_ok stored]
  rfl

/-- The counts after a computation that was counted for the evaluator of a step. -/
theorem counted_advances {count : Nat} {store : Store} (sound : session.Sound)
    (set : session.evaluators.lookup step.evaluator = some count)
    (progress : (recount session.store count).Progress store) :
    Advances step session (session.counted step.evaluator store) := by
  have aside : session.store.Evolves (recount session.store count) := .aside .refl rfl rfl
  have evolves := aside.trans progress.evolves
  obtain ⟨made, changes, forced⟩ := progress.counts
  refine ⟨⟨progress.represented, fun name x member => evolves.has (sound.registers name x member)⟩,
    evolves, made, changes, fun name _ => ?_⟩
  show ((step.evaluator, store.forced) :: session.evaluators).lookup name = _
  unfold tally
  by_cases same : name = step.evaluator
  · subst same
    rw [List.lookup_cons_self, set, forced]
    simp [recount]
  · have mismatch : (name == step.evaluator) = false := by simpa using same
    simp [List.lookup_cons, mismatch, same]

/-- **A computation that forces, counted for the evaluator of the step.** -/
theorem forcing_advances {computation : Eval α} {good : α → Store → Prop} (sound : session.Sound)
    (progress : ∀ store : Store, store.cells = session.store.cells → store.Represented →
      Moves Progress computation store good) :
    Moves (Advances step) (forcing step.evaluator computation) session fun a later =>
      good a later.store := by
  cases set : session.evaluators.lookup step.evaluator with
  | none =>
    have unset : Moves (Advances step) (evaluatorCount step.evaluator) session fun _ _ => False :=
      find_advances Session.evaluators sound fun count found => nomatch set.symm.trans found
    exact unset.bind fun _ _ _ never => never.elim
  | some count =>
    have represented : (recount session.store count).Represented := by
      obtain ⟨defs, terms, represents⟩ := sound.represented
      exact ⟨defs, terms, represents.congr rfl fun _ => rfl⟩
    have moves := progress (recount session.store count) rfl represented
    cases ended : computation (recount session.store count) with
    | ok a store =>
      obtain ⟨moved, holds⟩ := moves.ok a store ended
      have outcome := Eval.outcome_of_ok ended
      have whole := forcing_of_outcome set outcome
      constructor
      · intro b later ended
        rw [whole] at ended
        cases ended
        exact ⟨counted_advances sound set moved, holds⟩
      · intro refusal later ended
        rw [whole] at ended
        cases ended
    | error failure store =>
      have outcome := Eval.outcome_of_error ended
      have whole := forcing_of_outcome set outcome
      constructor
      · intro b later ended
        rw [whole] at ended
        cases ended
      · intro refusal later ended
        rw [whole] at ended
        cases ended
        exact counted_advances sound set (moves.error failure store ‹_›)

/-! ### Commands -/

theorem ofExcept_quiet {store : Store} {result : Except Failure α}
    (represented : store.Represented) :
    Moves Quiet (Eval.ofExcept result) store fun _ _ => True := by
  cases result with
  | ok a => exact .pure (.refl represented) trivial
  | error failure => exact .throw (.refl represented)

/-- **Building a cell.** -/
theorem construct_advances (depth : Nat) (env : TableId) (construction : Construction)
    (sound : session.Sound) :
    Moves (Advances step) (construct depth env construction) session fun x later =>
      later.store.Has x := by
  cases construction with
  | parse code => exact onStore_advances sound (parse_quiet depth env code sound.represented)
  | number numeral =>
    refine onStore_cell sound ((ofExcept_quiet sound.represented).bind fun n store quiet _ => ?_)
    exact number_quiet quiet.represented n
  | nil =>
    refine onStore_cell sound (value_quiet (v := .nil) sound.represented fun y member => ?_)
    cases member
  | truth flag =>
    refine onStore_advances sound (value_quiet sound.represented fun y member => ?_)
    cases flag <;> cases member
  | pair head tail =>
    refine (cell_advances sound).bind fun x session₁ advances₁ there₁ => ?_
    refine (cell_advances advances₁.sound).bind fun y session₂ advances₂ there₂ => ?_
    refine onStore_advances advances₂.sound (value_quiet advances₂.sound.represented ?_)
    intro z member
    simp only [Value.cells, List.mem_cons, List.not_mem_nil, or_false] at member
    rcases member with rfl | rfl
    · exact advances₂.has there₁
    · exact there₂
  | point m n =>
    refine onStore_cell sound ((ofExcept_quiet sound.represented).bind fun m store₁ quiet₁ _ => ?_)
    refine (ofExcept_quiet quiet₁.represented).bind fun n store₂ quiet₂ _ => ?_
    exact point_quiet quiet₂.represented m n
  | function f =>
    refine onStore_advances sound (value_quiet sound.represented fun y member => ?_)
    rw [show (Value.func f.1).cells = [] from f.2] at member
    cases member
  | probe x label =>
    refine (cell_advances sound).bind fun x session₁ advances₁ there => ?_
    exact onStore_advances advances₁.sound (observe_quiet advances₁.sound.represented there label)
  | apply f args =>
    refine (cell_advances sound).bind fun x session₁ advances₁ there => ?_
    refine (cells_advances advances₁.sound).bind fun found session₂ advances₂ inside => ?_
    exact onStore_advances advances₂.sound
      (applyAll_quiet depth advances₂.sound.represented (advances₂.has there) inside)
  | half side x =>
    refine (cell_advances sound).bind fun x session₁ advances₁ there => ?_
    exact onStore_advances advances₁.sound (takeHalf_quiet side advances₁.sound.represented there)
  | interact program state m n =>
    refine (cell_advances sound).bind fun x session₁ advances₁ there₁ => ?_
    refine (cell_advances advances₁.sound).bind fun y session₂ advances₂ there₂ => ?_
    have represented := advances₂.sound.represented
    refine onStore_cell advances₂.sound ((ofExcept_quiet represented).bind
      fun m store₁ quiet₁ _ => (ofExcept_quiet quiet₁.represented).bind fun n store₂ quiet₂ _ => ?_)
    exact interact_quiet depth quiet₂.represented
      (quiet₂.evolves.has (quiet₁.evolves.has (advances₂.has there₁)))
      (quiet₂.evolves.has (quiet₁.evolves.has there₂)) m n
  | streamExpr name =>
    refine (stream_advances sound).bind fun tokens session₁ advances₁ _ => ?_
    refine (onStore_advances advances₁.sound
      (readFrom_quiet depth env tokens advances₁.sound.represented)).bind
      fun read session₂ advances₂ inside => ?_
    obtain ⟨result, rest⟩ := read
    refine (setStream_advances advances₂.sound).bind fun _ session₃ advances₃ _ => ?_
    exact ofExcept_advances advances₃.sound fun x same => advances₃.has (inside x same)

theorem build_advances (depth : Nat) (env : TableId) (target : Option String)
    (construction : Construction) (sound : session.Sound) :
    Moves (Advances step) (build depth env target construction) session fun _ _ => True := by
  refine (construct_advances depth env construction sound).bind fun x session₁ advances₁ there => ?_
  refine (reading_advances advances₁.sound).bind fun view session₂ advances₂ _ => ?_
  exact reply_advances (ifNamed_advances advances₂.sound fun name =>
    setCell_advances advances₂.sound (advances₂.has there))

theorem createEnvironment_advances (builtins : Bool) (sound : session.Sound) :
    Moves (Advances step) (createEnvironment builtins) session fun _ _ => True := by
  cases builtins with
  | true =>
    refine (onStore_advances sound (create_quiet sound.represented)).bind
      fun env session₁ advances₁ _ => ?_
    exact reply_advances (emit_advances advances₁.sound)
  | false => exact onStore_advances sound (createTable_quiet sound.represented)

theorem load_advances (depth : Nat) (env : TableId) (code : String) (sound : session.Sound) :
    Moves (Advances step) (load depth env code) session fun _ _ => True := by
  refine (onStore_advances sound (load_quiet depth code sound.represented)).bind
    fun count session₁ advances₁ _ => ?_
  exact reply_advances (emit_advances advances₁.sound)

/-- **Work on environments.** -/
theorem workOnEnvironment_advances (depth : Nat) (env : TableId) (command : EnvironmentCommand)
    (sound : session.Sound) :
    Moves (Advances step) (workOnEnvironment depth env command) session fun _ _ => True := by
  cases command with
  | create target builtins =>
    refine (createEnvironment_advances builtins sound).bind fun table session₁ advances₁ _ => ?_
    exact reply_advances (setEnvironment_advances advances₁.sound)
  | clone target =>
    exact reply_advances (setEnvironment_advances sound)
  | load code =>
    exact reply_advances (load_advances depth env code sound)
  | define name x =>
    refine (cell_advances sound).bind fun y session₁ advances₁ there => ?_
    exact reply_advances (onStore_advances advances₁.sound
      (define_quiet advances₁.sound.represented there))
  | defineAll items =>
    refine (items_advances sound).bind fun found session₁ advances₁ inside => ?_
    exact reply_advances (onStore_advances advances₁.sound
      (defineAll_quiet advances₁.sound.represented inside))
  | lookup target name =>
    refine (onStore_advances sound (lookup_quiet env name sound.represented)).bind
      fun found session₁ advances₁ inside => ?_
    cases found with
    | none => exact .pure advances₁.settled trivial
    | some x =>
      refine (reading_advances advances₁.sound).bind fun view session₂ advances₂ _ => ?_
      exact reply_advances (ifNamed_advances advances₂.sound fun name =>
        setCell_advances advances₂.sound (advances₂.has (inside x rfl)))
  | contains name =>
    exact reply_advances (onStore_advances sound (lookup_quiet env name sound.represented))
  | names =>
    have bindings : Moves Quiet (Environment.bindings env) session.store fun _ _ => True := by
      constructor
      · intro table later ended
        cases ended
        exact ⟨.refl sound.represented, trivial⟩
      · exact fun _ _ ended => nomatch ended
    exact reply_advances (onStore_advances sound bindings)
  | showBindings =>
    exact reply_advances (reading_advances sound)
  | showEnvironment =>
    exact reply_advances (reading_advances sound)

theorem inspect_advances (depth : Nat) (inspection : Inspection) (sound : session.Sound) :
    Moves (Advances step) (inspect depth inspection) session fun _ _ => True := by
  cases inspection with
  | view x =>
    refine (cell_advances sound).bind fun x session₁ advances₁ _ => ?_
    exact reply_advances (reading_advances advances₁.sound)
  | same x y =>
    refine (cell_advances sound).bind fun x session₁ advances₁ _ => ?_
    exact reply_advances (cell_advances advances₁.sound)
  | showCell x =>
    refine (cell_advances sound).bind fun x session₁ advances₁ _ => ?_
    exact reply_advances (reading_advances advances₁.sound)
  | equalTrees x y =>
    refine (tree_advances sound).bind fun first session₁ advances₁ _ => ?_
    exact reply_advances (tree_advances advances₁.sound)

theorem describeTree_advances (found : Tree) (sound : session.Sound) :
    Moves (Advances step) (describeTree found) session fun _ _ => True := by
  unfold describeTree
  cases found.writable with
  | true => exact .pure (.refl sound) trivial
  | false => exact .throw (.refl sound)

/-- Asking about the cell in a register, with a computation that forces it. -/
theorem asking_advances {β : Type} {computation : CellId → Eval α} {next : α → Work β}
    {good : α → Store → Prop} (sound : session.Sound)
    (progress : ∀ (x : CellId) (store : Store), store.Represented → store.Has x →
      Moves Progress (computation x) store good)
    (rest : ∀ a later, Advances step session later → good a later.store →
      Moves (Advances step) (next a) later fun _ _ => True) :
    Moves (Advances step) (do next (← forcing step.evaluator (computation (← cell name)))) session
      fun _ _ => True := by
  refine (cell_advances sound).bind fun x session₁ advances₁ there => ?_
  refine (forcing_advances advances₁.sound fun store cells represented =>
    progress x store represented ((Store.has_congr cells).mpr there)).bind
    fun a session₂ advances₂ holds => ?_
  exact rest a session₂ (advances₁.trans advances₂) holds

theorem equalNumbers_progress (depth : Nat) {store : Store} {y : CellId}
    (represented : store.Represented) (there : store.Has x) (there' : store.Has y) :
    Moves Progress (equalNumbers depth x y) store fun _ _ => True := by
  refine (force_progress depth represented there).bind fun v store₁ progress₁ _ => ?_
  refine (force_progress depth progress₁.represented (progress₁.evolves.has there')).bind
    fun w store₂ progress₂ _ => ?_
  split <;> exact .pure progress₂.settled trivial

/-- **Asking for values.** -/
theorem demand_advances (depth : Nat) (env : TableId) (asked : Demand) (sound : session.Sound) :
    Moves (Advances step) (demand depth env step.evaluator asked) session fun _ _ => True := by
  cases asked with
  | force x =>
    refine asking_advances sound (fun _ _ => force_progress depth) fun v later advances _ => ?_
    exact reply_advances (reading_advances advances.sound)
  | integer x operation =>
    have progress : ∀ (x : CellId) (store : Store), store.Represented → store.Has x →
        Moves Progress (do (← force depth x).toInt operation) store fun _ _ => True := by
      intro x store represented there
      exact (force_progress depth represented there).bind fun v later moved _ =>
        toInt_progress moved.represented v operation
    refine asking_advances sound progress fun n later advances _ => ?_
    cases writable n with
    | true => exact .pure advances.settled trivial
    | false => exact .throw advances.settled
  | equalNumbers x y =>
    refine (cell_advances sound).bind fun x session₁ advances₁ there₁ => ?_
    refine (cell_advances advances₁.sound).bind fun y session₂ advances₂ there₂ => ?_
    exact reply_advances (forcing_advances advances₂.sound fun store cells represented =>
      equalNumbers_progress depth represented
        ((Store.has_congr cells).mpr (advances₂.has there₁))
        ((Store.has_congr cells).mpr there₂))
  | isNil x =>
    exact asking_advances sound (fun _ _ => isNil_progress depth) fun _ _ advances _ =>
      .pure advances.settled trivial
  | elements target x =>
    refine asking_advances sound (fun _ _ => elements_progress depth)
      fun found session₁ advances₁ inside => ?_
    have views : Moves (Advances step) (found.mapM fun x => reading (describe x)) session₁
        fun views later => ∀ view ∈ views, True :=
      Moves.mapM (.refl advances₁.sound) Advances.settled (fun _ _ => trivial)
        fun _ _ _ advances => reading_advances advances.sound
    refine views.bind fun views session₂ advances₂ _ => ?_
    refine reply_advances (ifNamed_advances advances₂.sound fun name => ?_)
    refine Moves.forM (.refl advances₂.sound) Advances.settled fun item member later advances => ?_
    obtain ⟨y, k⟩ := item
    have among : y ∈ found := List.fst_mem_of_mem_zipIdx member
    exact setCell_advances advances.sound (advances.has (advances₂.has (inside y among)))
  | render x =>
    exact asking_advances sound (fun _ _ => render_progress depth) fun _ _ advances _ =>
      .pure advances.settled trivial
  | source x =>
    exact asking_advances sound (fun _ _ => source_progress depth) fun _ _ advances _ =>
      .pure advances.settled trivial
  | materialize target x =>
    refine asking_advances sound (fun _ _ => materialize_progress depth)
      fun found session₁ advances₁ _ => ?_
    refine (describeTree_advances found advances₁.sound).bind fun reply session₂ advances₂ _ => ?_
    exact reply_advances (ifNamed_advances advances₂.sound fun name =>
      setTree_advances advances₂.sound)
  | eval code =>
    exact reply_advances (forcing_advances sound fun store _ represented =>
      eval_progress depth env code represented)
  | materializeCode code =>
    exact (forcing_advances sound fun store _ represented =>
      materializeCode_progress depth env code represented).bind fun found session₁ advances₁ _ =>
        describeTree_advances found advances₁.sound

theorem workOnStream_advances (command : StreamCommand) (sound : session.Sound) :
    Moves (Advances step) (workOnStream command) session fun _ _ => True := by
  cases command with
  | start target code =>
    exact reply_advances (setStream_advances sound)
  | peek name =>
    refine (stream_advances sound).bind fun tokens session₁ advances₁ _ => ?_
    exact reply_advances (setStream_advances advances₁.sound)
  | advance name =>
    refine (stream_advances sound).bind fun tokens session₁ advances₁ _ => ?_
    exact reply_advances (setStream_advances advances₁.sound)
  | expectEnd name =>
    refine (stream_advances sound).bind fun tokens session₁ advances₁ _ => ?_
    refine (setStream_advances advances₁.sound).bind fun _ session₂ advances₂ _ => ?_
    have ends : Moves (Advances step) (ofExcept (tokens.expectEnd.1.mapError .fault)) session₂
        fun _ _ => True := ofExcept_advances advances₂.sound fun _ _ => trivial
    exact reply_advances ends

/-! ### Steps -/

/-- A new evaluator has a count of its own. -/
theorem setEvaluator_advances {count : Nat} (sound : session.Sound)
    (made : step.command = .newEvaluator name) :
    Moves (Advances step) (setEvaluator name count) session fun _ _ => True := by
  refine modify_advances (.aside ⟨sound.represented, sound.registers⟩ rfl fun name' kept => ?_)
  have other : name' ≠ name := fun same => kept (same ▸ made)
  have mismatch : (name' == name) = false := by simpa using other
  show ((name, count) :: session.evaluators).lookup name' = _
  rw [List.lookup_cons, mismatch]

/-- **Every command.** -/
theorem executeWith_advances (depth : Nat) (env : TableId) (sound : session.Sound) :
    Moves (Advances step) (executeWith depth env step.evaluator step.command) session
      fun _ _ => True := by
  cases asked : step.command with
  | build target construction => exact build_advances depth env target construction sound
  | environment command => exact workOnEnvironment_advances depth env command sound
  | newEvaluator target =>
    exact reply_advances (setEvaluator_advances sound asked)
  | inspect inspection => exact inspect_advances depth inspection sound
  | demand demand => exact demand_advances depth env demand sound
  | stream command => exact workOnStream_advances command sound

theorem execute_advances (depth : Nat) (sound : session.Sound) :
    Moves (Advances step) (execute depth step) session fun _ _ => True := by
  refine (environment_advances sound).bind fun env session₁ advances₁ _ => ?_
  refine (requireEvaluator_advances advances₁.sound).bind fun _ session₂ advances₂ _ => ?_
  exact executeWith_advances depth env advances₂.sound

/-- What a computation does to a session holds of the session after it. -/
theorem advances_after {work : Work α} {good : α → Session → Prop}
    (moves : Moves (Advances step) work session good) :
    Advances step session (after work session) := by
  unfold Session.after
  cases ended : work session with
  | ok a later => exact (moves.ok a later ended).1
  | error refusal later => exact moves.error refusal later ended

/-- A session with new records. -/
def cleared (session : Session) : Session :=
  { session with store := { session.store with trace := [], changes := [] } }

theorem Sound.cleared (sound : session.Sound) : session.cleared.Sound := by
  obtain ⟨defs, terms, represents⟩ := sound.represented
  exact ⟨⟨defs, terms, represents.congr rfl fun _ => rfl⟩, sound.registers⟩

/-- A step carries out its command with new records. -/
theorem after_perform (depth : Nat) (step : Step) (session : Session) :
    after (perform depth step) session = after (execute depth step) session.cleared := by
  have clears : clearRecords session = .ok () session.cleared := rfl
  unfold after
  rw [perform, bind_of_ok clears]
  cases ended : execute depth step session.cleared with
  | ok reply later =>
    have out : outcome (execute depth step) session.cleared = .ok (.ok reply) later := by
      simp only [outcome, ended]
    rw [bind_of_ok out]
    rfl
  | error refusal later =>
    have out : outcome (execute depth step) session.cleared = .ok (.error refusal) later := by
      simp only [outcome, ended]
    rw [bind_of_ok out]
    rfl

/-- **Every step.** -/
theorem perform_advances (depth : Nat) (step : Step) (sound : session.Sound) :
    Advances step session.cleared (after (perform depth step) session) := by
  rw [after_perform]
  exact advances_after (execute_advances depth sound.cleared)

/-! ### Histories of a session -/

/-- The session after more steps, each with its depth. -/
def continued (session : Session) (history : List (Nat × Step)) : Session :=
  history.foldl (fun session (depth, step) => after (perform depth step) session) session

/-- The session that steps lead to. -/
def reached (history : List (Nat × Step)) : Session :=
  start.continued history

theorem reached_append (history more : List (Nat × Step)) :
    reached (history ++ more) = (reached history).continued more :=
  List.foldl_append

theorem sound_blank : blank.Sound := by
  have represents : Represents (fun _ _ => none) [] blank.store := by
    refine ⟨rfl, fun x there => absurd there (Nat.not_lt_zero _), fun table name x bound => ?_,
      fun _ _ _ => rfl⟩
    cases bound
  exact ⟨⟨_, _, represents⟩, fun _ _ member => nomatch member⟩

theorem setUp_advances (sound : session.Sound)
    (made : step.command = .newEvaluator firstEvaluator) :
    Moves (Advances step) setUp session fun _ _ => True := by
  refine (createEnvironment_advances true sound).bind fun env session₁ advances₁ _ => ?_
  refine (setEnvironment_advances advances₁.sound).bind fun _ session₂ advances₂ _ => ?_
  exact setEvaluator_advances advances₂.sound made

theorem sound_start : start.Sound := by
  have moves : Moves (Advances (.ofCommand (.newEvaluator firstEvaluator))) setUp blank
      fun _ _ => True := setUp_advances sound_blank rfl
  exact (advances_after moves).sound

/-- Along steps the session stays sound and its cells evolve. -/
theorem continued_evolves (history : List (Nat × Step)) (sound : session.Sound) :
    (session.continued history).Sound ∧
      ∀ x v, session.store.Has x → session.store.cell x = .value v →
        (session.continued history).store.cell x = .value v := by
  induction history generalizing session with
  | nil => exact ⟨sound, fun _ _ _ holds => holds⟩
  | cons next rest ih =>
    obtain ⟨depth, step⟩ := next
    have advances := perform_advances depth step sound
    obtain ⟨sound', keeps⟩ := ih advances.sound
    exact ⟨sound', fun x v there holds =>
      keeps x v (advances.has there) (advances.evolves.value there holds)⟩

/-- **Every session that steps lead to is sound.** -/
theorem sound_reached (history : List (Nat × Step)) : (reached history).Sound :=
  (continued_evolves history sound_start).1

end ByNeed.Session
