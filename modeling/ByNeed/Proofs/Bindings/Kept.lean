/-
**What computations leave alone.**

Only definitions write to the tables of a store. Every other computation keeps the tables, whatever
the store is like and however the computation ends; and in a session, every command that neither
defines names nor makes or clones an environment also keeps the names of the environments.

* `Keeps`: a computation leaves a view of the state as it is;
* `tables_allow`, `force_keeps`: adding cells and forcing keep the tables;
* `perform_respects`: what the command of a step respects, the step does;
* `Session.Beside`, `onStore_respects`, `forcing_respects`: what computations on the store do to a
  session;
* `executeWith_respects`: **every other command moves the store as its computations do**, and keeps
  the names of the environments; so it keeps the tables (`executeWith_keeps`).
-/

import ByNeed.Proofs.Respects
import ByNeed.Proofs.Steps

namespace ByNeed

/-! ### Views that are kept -/

section Keeps

variable {ε σ τ α : Type} {view : σ → τ}

/-- A view of two states is the same. -/
def Same (view : σ → τ) (s later : σ) : Prop :=
  view later = view s

instance : Std.Refl (Same view) where
  refl _ := rfl

instance : Trans (Same view) (Same view) (Same view) where
  trans first second := Eq.trans second first

/-- **However it ends, the computation leaves a view of the state as it is.** -/
abbrev Keeps (view : σ → τ) (computation : EStateM ε σ α) : Prop :=
  Respects (Same view) computation

/-- Changing the state outside of the view. -/
theorem Keeps.change {change : σ → α × σ} (kept : ∀ s, view (change s).2 = view s) :
    Keeps view (modifyGet change : EStateM ε σ α) :=
  Respects.change kept

/-- What follows from a view is kept with it. -/
theorem Keeps.of_view {υ : Type} {computation : EStateM ε σ α} (keeps : Keeps view computation)
    (read : τ → υ) : Keeps (read ∘ view) computation :=
  Respects.imp keeps fun _ _ same => congrArg read same

end Keeps

/-! ### Tables -/

/-- Adding cells and leaving labels keep the tables. -/
theorem tables_allow : Allows (Same Store.tables) :=
  ⟨fun _ _ => rfl, fun _ _ => rfl⟩

/-- **Forcing keeps the tables.** -/
theorem force_keeps (depth : Nat) (x : CellId) : Keeps Store.tables (force depth x) :=
  force_respects tables_allow (fun _ _ kept => kept) depth x

/-- **Reading keeps the tables.** -/
theorem parse_keeps (depth : Nat) (env : TableId) (code : String) :
    Keeps Store.tables (Reader.parse depth env code) :=
  parse_respects tables_allow depth env code

/-! ### Commands of a session -/

namespace Session

/-- What the environments of a session are: their tables and their names. -/
def scope (session : Session) : Array Table × Registry TableId :=
  (session.store.tables, session.environments)

/-- A command that defines names. -/
def Command.defines : Command → Bool
  | .environment (.load _) => true
  | .environment (.define _ _) => true
  | .environment (.defineAll _) => true
  | _ => false

/-- The name that a command gives to an environment. -/
def Command.named? : Command → Option String
  | .environment (.create target _) => some target
  | .environment (.clone target) => some target
  | _ => none

/-- **The store of a session moves as a relation says**, and its environments keep their names. -/
structure Beside (R : Store → Store → Prop) (session later : Session) : Prop where
  store : R session.store later.store
  environments : later.environments = session.environments

section Registers

variable {α : Type} {S : Session → Session → Prop} [Std.Refl S] [Trans S S S]

theorem find_respects (registry : Session → Registry α) (name : String) :
    Respects S (do find (registry (← get)) name) := by
  refine Respects.get.bind fun session => ?_
  unfold find
  cases (registry session).lookup name with
  | some a => exact .pure a
  | none => exact .throw _

theorem register_respects (name : String) : Respects S (cell name) :=
  find_respects Session.cells name

theorem stream_respects (name : String) : Respects S (stream name) :=
  find_respects Session.streams name

omit [Trans S S S] in
theorem exceptional_respects (result : Except Failure α) : Respects S (ofExcept result) := by
  cases result with
  | ok a => exact .pure a
  | error failure => exact .throw _

theorem reading_respects (read : Store → Except Failure α) : Respects S (reading read) :=
  Respects.get.bind fun _ => exceptional_respects _

omit [Trans S S S] in
theorem ifNamed_respects (target : Option String) {work : String → Work Unit}
    (respects : ∀ name, Respects S (work name)) : Respects S (ifNamed target work) := by
  cases target with
  | some name => exact respects name
  | none => exact .pure ()

omit [Trans S S S] in
theorem describeTree_respects (tree : Tree) : Respects S (describeTree tree) := by
  unfold describeTree
  split
  · exact .pure _
  · exact .throw _

/-- **What the command of a step respects, the step does**, with new records. -/
theorem perform_respects (depth : Nat) (step : Step)
    (respects : ∀ env, Respects S (executeWith depth env step.evaluator step.command))
    (session : Session) : S session.cleared (after (perform depth step) session) := by
  have executed : Respects S (execute depth step) :=
    (find_respects Session.environments step.env).bind fun env =>
      ((find_respects Session.evaluators step.evaluator).bind fun _ => .pure ()).bind fun _ =>
        respects env
  rw [after_perform]
  unfold Session.after
  cases ended : execute depth step session.cleared with
  | ok reply later => exact ((executed session.cleared).ok reply later ended).1
  | error refusal later => exact (executed session.cleared).error refusal later ended

end Registers

section Beside

variable {α : Type} {R : Store → Store → Prop} [Std.Refl R]

instance : Std.Refl (Beside R) where
  refl session := ⟨Std.Refl.refl session.store, rfl⟩

instance [Trans R R R] : Trans (Beside R) (Beside R) (Beside R) where
  trans first second :=
    ⟨Trans.trans first.store second.store, second.environments.trans first.environments⟩

/-- Changing a session outside of its store and its environments. -/
theorem Beside.change {change : Session → α × Session}
    (store : ∀ session, (change session).2.store = session.store)
    (environments : ∀ session, (change session).2.environments = session.environments) :
    Respects (Beside R) (modifyGet change : Work α) :=
  .change fun session => ⟨by rw [store]; exact Std.Refl.refl _, environments session⟩

theorem setCell_respects (name : String) (x : CellId) : Respects (Beside R) (setCell name x) :=
  Beside.change (fun _ => rfl) fun _ => rfl

theorem setEvaluator_respects (name : String) (count : Nat) :
    Respects (Beside R) (setEvaluator name count) :=
  Beside.change (fun _ => rfl) fun _ => rfl

theorem setStream_respects (name : String) (tokens : TokenStream) :
    Respects (Beside R) (setStream name tokens) :=
  Beside.change (fun _ => rfl) fun _ => rfl

omit [Std.Refl R] in
/-- **A computation on the store.** -/
theorem onStore_respects {computation : Eval α} (respects : Respects R computation) :
    Respects (Beside R) (onStore computation) := by
  intro session
  constructor
  · intro a later ended
    cases middle : computation session.store with
    | ok b store =>
      simp only [onStore, middle] at ended
      cases ended
      exact ⟨⟨((respects session.store).ok a store middle).1, rfl⟩, trivial⟩
    | error failure store =>
      simp only [onStore, middle] at ended
      cases ended
  · intro refusal later ended
    cases middle : computation session.store with
    | ok b store =>
      simp only [onStore, middle] at ended
      cases ended
    | error failure store =>
      simp only [onStore, middle] at ended
      cases ended
      exact ⟨(respects session.store).error failure store middle, rfl⟩

variable [Trans R R R]
  (recounts : ∀ (store : Store) (count : Nat), R store { store with forced := count })

include recounts in
/-- **The same with the count of an evaluator.** -/
theorem forcing_respects {computation : Eval α} (evaluator : String)
    (respects : Respects R computation) :
    Respects (Beside R) (forcing evaluator computation) := by
  refine (find_respects Session.evaluators evaluator).bind fun count => ?_
  have recount : Respects R (modify fun store => { store with forced := count } : Eval Unit) :=
    .change fun store => recounts store count
  refine (onStore_respects (recount.bind fun _ => outcome_respects respects)).bind fun result => ?_
  exact Respects.get.bind fun _ => (setEvaluator_respects _ _).bind fun _ =>
    exceptional_respects result

variable (allows : Allows R) (forced : ∀ depth x, Respects R (force depth x))

include allows in
theorem construct_respects (depth : Nat) (env : TableId) (construction : Construction) :
    Respects (Beside R) (construct depth env construction) := by
  cases construction with
  | parse code => exact onStore_respects (parse_respects allows depth env code)
  | number numeral =>
    exact onStore_respects ((ofExcept_respects _).bind fun _ => value_respects allows _)
  | nil => exact onStore_respects (value_respects allows _)
  | truth flag => exact onStore_respects (value_respects allows _)
  | pair head tail =>
    refine (register_respects head).bind fun x => (register_respects tail).bind fun y => ?_
    exact onStore_respects (value_respects allows _)
  | point m n =>
    exact onStore_respects ((ofExcept_respects _).bind fun _ => (ofExcept_respects _).bind fun _ =>
      point_respects allows _ _)
  | function f => exact onStore_respects (value_respects allows _)
  | probe x label =>
    exact (register_respects x).bind fun _ => onStore_respects (suspend_respects allows _)
  | apply f args =>
    refine (register_respects f).bind fun x =>
      (Respects.mapM register_respects args).bind fun found => ?_
    exact onStore_respects (applyAll_respects allows depth x found)
  | half side x =>
    exact (register_respects x).bind fun y => onStore_respects (takeHalf_respects allows side y)
  | interact program state m n =>
    refine (register_respects program).bind fun x => (register_respects state).bind fun y => ?_
    exact onStore_respects ((ofExcept_respects _).bind fun _ => (ofExcept_respects _).bind fun _ =>
      (point_respects allows _ _).bind fun argument => applyAll_respects allows depth x _)
  | streamExpr name =>
    refine (stream_respects name).bind fun tokens => ?_
    refine (onStore_respects (readFrom_respects allows depth env [] tokens)).bind fun read => ?_
    exact (setStream_respects name _).bind fun _ => exceptional_respects _

omit [Std.Refl R] [Trans R R R] in
theorem inspect_respects {S : Session → Session → Prop} [Std.Refl S] [Trans S S S] (depth : Nat)
    (inspection : Inspection) : Respects S (inspect depth inspection) := by
  cases inspection with
  | view x => exact (register_respects x).bind fun _ => (reading_respects _).bind fun _ => .pure _
  | same x y =>
    exact (register_respects x).bind fun _ => (register_respects y).bind fun _ => .pure _
  | showCell x =>
    exact (register_respects x).bind fun _ => (reading_respects _).bind fun _ => .pure _
  | equalTrees x y =>
    exact (find_respects Session.trees x).bind fun _ =>
      (find_respects Session.trees y).bind fun _ => .pure _

include recounts in
/-- Asking about the cell in a register. -/
theorem asking_respects {β : Type} {computation : CellId → Eval α} {next : α → Work β}
    (evaluator x : String) (respects : ∀ x, Respects R (computation x))
    (rest : ∀ a, Respects (Beside R) (next a)) :
    Respects (Beside R) (do next (← forcing evaluator (computation (← cell x)))) :=
  (register_respects x).bind fun y => (forcing_respects recounts evaluator (respects y)).bind rest

include recounts allows forced in
theorem demand_respects (depth : Nat) (env : TableId) (evaluator : String) (asked : Demand) :
    Respects (Beside R) (demand depth env evaluator asked) := by
  cases asked with
  | force x =>
    exact asking_respects recounts evaluator x (forced depth) fun _ =>
      (reading_respects _).bind fun _ => .pure _
  | integer x operation =>
    refine asking_respects recounts evaluator x (fun y => (forced depth y).bind fun v =>
      toInt_respects operation v) fun n => ?_
    split
    · exact .pure _
    · exact .throw _
  | equalNumbers x y =>
    refine (register_respects x).bind fun x => (register_respects y).bind fun y => ?_
    refine (forcing_respects recounts evaluator ((forced depth x).bind fun v =>
      (forced depth y).bind fun w => ?_)).bind fun _ => .pure _
    split <;> exact .pure _
  | isNil x =>
    exact asking_respects recounts evaluator x (isNil_respects allows forced depth) fun _ => .pure _
  | elements target x =>
    refine asking_respects recounts evaluator x (elements_respects forced depth) fun found => ?_
    refine (Respects.mapM (fun _ => reading_respects _) found).bind fun views => ?_
    refine (ifNamed_respects target fun name => ?_).bind fun _ => .pure _
    exact Respects.forM (fun _ => setCell_respects _ _) _
  | render x =>
    exact asking_respects recounts evaluator x (render_respects forced depth) fun _ => .pure _
  | source x =>
    exact asking_respects recounts evaluator x (fun y =>
      (sourceTokens_respects forced depth y).bind fun _ => .pure _) fun _ => .pure _
  | materialize target x =>
    refine asking_respects recounts evaluator x (materialize_respects forced depth) fun tree => ?_
    refine (describeTree_respects tree).bind fun _ => ?_
    exact (ifNamed_respects target fun _ => Beside.change (fun _ => rfl) fun _ => rfl).bind
      fun _ => .pure _
  | eval code =>
    exact (forcing_respects recounts evaluator ((parse_respects allows depth env code).bind
      (render_respects forced depth))).bind fun _ => .pure _
  | materializeCode code =>
    exact (forcing_respects recounts evaluator ((parse_respects allows depth env code).bind
      (materialize_respects forced depth))).bind describeTree_respects

theorem workOnStream_respects (command : StreamCommand) :
    Respects (Beside R) (workOnStream command) := by
  cases command with
  | start target code => exact (setStream_respects target _).bind fun _ => .pure _
  | peek name =>
    exact (stream_respects name).bind fun _ => (setStream_respects name _).bind fun _ => .pure _
  | advance name =>
    exact (stream_respects name).bind fun _ => (setStream_respects name _).bind fun _ => .pure _
  | expectEnd name =>
    exact (stream_respects name).bind fun _ => (setStream_respects name _).bind fun _ =>
      (exceptional_respects _).bind fun _ => .pure _

theorem workOnEnvironment_respects (depth : Nat) (env : TableId) {command : EnvironmentCommand}
    (defines : (Command.environment command).defines = false)
    (named : (Command.environment command).named? = none) :
    Respects (Beside R) (workOnEnvironment depth env command) := by
  have bindings : Respects R (Environment.bindings env) := Respects.get.bind fun _ => .pure _
  have lookup : ∀ name, Respects R (Environment.lookup env name) := fun _ =>
    bindings.bind fun _ => .pure _
  cases command with
  | lookup target name =>
    refine (onStore_respects (lookup name)).bind fun found => ?_
    cases found with
    | none => exact .pure _
    | some x =>
      refine (reading_respects _).bind fun _ => ?_
      exact (ifNamed_respects target fun _ => setCell_respects _ x).bind fun _ => .pure _
  | contains name => exact (onStore_respects (lookup name)).bind fun _ => .pure _
  | names => exact (onStore_respects bindings).bind fun _ => .pure _
  | showBindings => exact (reading_respects _).bind fun _ => .pure _
  | showEnvironment => exact (reading_respects _).bind fun _ => .pure _
  | create target builtins => cases named
  | clone target => cases named
  | load code => cases defines
  | define name x => cases defines
  | defineAll items => cases defines

include recounts allows forced in
/-- **A command that neither defines names nor gives a name to an environment** moves the store as its
computations do, and keeps the names of the environments. -/
theorem executeWith_respects (depth : Nat) (env : TableId) (evaluator : String) {command : Command}
    (defines : command.defines = false) (named : command.named? = none) :
    Respects (Beside R) (executeWith depth env evaluator command) := by
  cases command with
  | build target construction =>
    refine (construct_respects allows depth env construction).bind fun x =>
      (reading_respects _).bind fun _ => ?_
    exact (ifNamed_respects target fun _ => setCell_respects _ x).bind fun _ => .pure _
  | environment command => exact workOnEnvironment_respects depth env defines named
  | newEvaluator target => exact (setEvaluator_respects target 0).bind fun _ => .pure _
  | inspect inspection => exact inspect_respects depth inspection
  | demand asked => exact demand_respects recounts allows forced depth env evaluator asked
  | stream command => exact workOnStream_respects command

end Beside

/-- **Such a command keeps the tables** and the names of the environments. -/
theorem executeWith_keeps (depth : Nat) (env : TableId) (evaluator : String) {command : Command}
    (defines : command.defines = false) (named : command.named? = none) :
    Keeps scope (executeWith depth env evaluator command) :=
  (executeWith_respects (fun _ _ => rfl) tables_allow force_keeps depth env evaluator defines
    named).imp fun _ _ beside => Prod.ext beside.store beside.environments

end Session

end ByNeed
