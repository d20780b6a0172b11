/-
**The bindings of an environment are a log that is written once.**

After any steps of a session, the bindings of a table are those of before with others after them, no
name is bound twice, and a bound name keeps its cell. Reading, applying, forcing and evaluating add
no binding, and neither does a definition that is refused. The handles on one table see one log.

* `Adds`: **what a command adds**, by the command and its outcome;
* `Housed`: the environments of a session are in its store, and no name is bound twice;
* `executeWith_logged`: every command adds what its outcome says;
* `perform_logs`, `continued_logs`: what one step does to the tables, and what steps do;
* `continued_handle`: a handle stands for its table until its name is given anew;
* `bindings_write_once`: **the environment is a log that is written once**, shared by its clones.
-/

import ByNeed.Proofs.Bindings.Log
import ByNeed.Proofs.Steps

namespace ByNeed

open Store (Logs)
open Definitions (defineLine)

variable {store later : Store} {env : TableId} {name : String} {x : CellId} {added : Table}
  {depth : Nat}

/-! ### Commands -/

namespace Session

variable {session : Session} {command : Command} {evaluator target : String}

/-- The names of items with the cells in their registers, if all of these are set. -/
def resolve (session : Session) (items : List (String × String)) : Option Table :=
  items.mapM fun (name, register) => (session.cells.lookup register).map (name, ·)

/-- **What a command adds to the bindings of its environment**, by its outcome. -/
inductive Adds (depth : Nat) (env : TableId) (session : Session) :
    Command → Except Refusal Reply → Table → Prop
  /-- A name that is free is bound to the cell in a register. -/
  | defined {name register : String} {x : CellId} : session.cells.lookup register = some x →
      (session.store.table env).lookup name = none →
      Adds depth env session (.environment (.define name register)) (.ok .done) [(name, x)]
  /-- A name that is bound is not bound again. -/
  | duplicate {name register : String} {y : CellId} :
      (session.store.table env).lookup name = some y →
      Adds depth env session (.environment (.define name register))
        (.error (.failed (.fault (.duplicateSymbol name)))) []
  /-- All items are bound. -/
  | definedAll {items : List (String × String)} {bindings : Table} :
      session.resolve items = some bindings →
      Adds depth env session (.environment (.defineAll items)) (.ok .done) bindings
  /-- The items are bound that come before one whose name is bound already. -/
  | interrupted {items : List (String × String)} {done rest : Table} {item : String × CellId}
      {y : CellId} : session.resolve items = some (done ++ item :: rest) →
      (session.store.table env ++ done).lookup item.1 = some y →
      Adds depth env session (.environment (.defineAll items))
        (.error (.failed (.fault (.duplicateSymbol item.1)))) done
  /-- All lines are carried out, and each that is not blank adds a binding. -/
  | loaded {code : String} {added : Table} {later : Store} :
      Carried depth env 1 (Text.lines code.toList) session.store added later →
      added.length = ((Text.lines code.toList).filter fun line => Text.words line ≠ []).length →
      Adds depth env session (.environment (.load code)) (.ok (.defined added.length)) added
  /-- The lines are carried out that come before one that fails, and each of them that is not blank
  adds a binding. -/
  | stopped {code : String} {done rest : List (List Char)} {line : List Char} {added : Table}
      {middle later : Store} {failure : Failure} : Text.lines code.toList = done ++ line :: rest →
      Carried depth env 1 done session.store added middle →
      added.length = (done.filter fun line => Text.words line ≠ []).length →
      defineLine depth env (1 + done.length) line middle = .error failure later →
      Adds depth env session (.environment (.load code)) (.error (.failed failure)) added
  /-- A command that reads a register, an environment or an evaluator that is not set does nothing. -/
  | unset {command : Command} {name : String} : Adds depth env session command (.error (.unset name)) []
  /-- Other commands add nothing, however they end. -/
  | other {command : Command} {outcome : Except Refusal Reply} : command.defines = false →
      Adds depth env session command outcome []

/-- **The environments of a session are in its store**, and no name is bound twice. -/
structure Housed (session : Session) : Prop where
  inside : ∀ name env, (name, env) ∈ session.environments → env.index < session.store.tables.size
  nodup : ∀ t, (session.store.names t).Nodup

theorem Housed.lookup (housed : session.Housed) (found : session.environments.lookup name = some env) :
    env.index < session.store.tables.size :=
  housed.inside name env (mem_of_lookup found)

/-- The outcome of a computation in a session, and the session after it. -/
def result {α : Type} (work : Work α) (session : Session) : Except Refusal α × Session :=
  match work session with
  | .ok a later => (.ok a, later)
  | .error refusal later => (.error refusal, later)

/-- **What a command did is logged**: it added what its outcome says. -/
def Logged (depth : Nat) (env : TableId) (session : Session) (command : Command)
    (ended : Except Refusal Reply × Session) : Prop :=
  ∃ added, Adds depth env session command ended.1 added ∧
    Logs env added session.store ended.2.store ∧ ended.2.Housed

/-- The store has changed, and the environments have kept their names. -/
theorem Housed.logs (housed : session.Housed) (logs : Logs env added session.store later)
    {last : Session} (store : last.store = later) (named : last.environments = session.environments) :
    last.Housed := by
  refine ⟨fun name env member => ?_, by rw [store]; exact logs.nodup housed.nodup⟩
  rw [named] at member
  rw [store]
  exact Nat.lt_of_lt_of_le (housed.inside name env member) logs.size

theorem Logged.unset (housed : session.Housed) (name : String) :
    Logged depth env session command (.error (.unset name), session) :=
  ⟨[], .unset, .of_tables rfl, housed⟩

theorem cell_of_some (set : session.cells.lookup name = some x) :
    cell name session = .ok x session := by
  show find session.cells name session = _
  rw [find, set]
  rfl

theorem cell_of_none (unset : session.cells.lookup name = none) :
    cell name session = .error (.unset name) session := by
  show find session.cells name session = _
  rw [find, unset]
  rfl

/-- **One name is defined.** -/
theorem define_logged (housed : session.Housed) (inside : env.index < session.store.tables.size)
    (name register : String) :
    Logged depth env session (.environment (.define name register))
      (result (workOnEnvironment depth env (.define name register)) session) := by
  unfold result
  rw [workOnEnvironment]
  cases set : session.cells.lookup register with
  | none =>
    rw [bind_of_error (cell_of_none set)]
    exact .unset housed register
  | some x =>
    rw [bind_of_ok (cell_of_some set)]
    cases found : (session.store.table env).lookup name with
    | some y =>
      rw [bind_of_error (onStore_of_error (define_of_bound found x))]
      exact ⟨[], .duplicate found, .of_tables rfl, housed⟩
    | none =>
      have logs := Logs.bindName inside found x
      rw [bind_of_ok (onStore_of_ok (define_of_unbound found x))]
      exact ⟨[(name, x)], .defined set found, logs, housed.logs logs rfl rfl⟩

/-- The registers of items are read from left to right. -/
theorem items_resolve (items : List (String × String)) :
    (∃ bindings, session.resolve items = some bindings ∧
      (items.mapM fun (name, x) => do return (name, ← cell x) : Work Table) session =
        .ok bindings session) ∨
    ∃ name, (items.mapM fun (name, x) => do return (name, ← cell x) : Work Table) session =
      .error (.unset name) session := by
  induction items with
  | nil => exact Or.inl ⟨[], rfl, rfl⟩
  | cons item rest ih =>
    obtain ⟨name, register⟩ := item
    simp only [resolve, List.mapM_cons] at ih ⊢
    cases set : session.cells.lookup register with
    | none => exact Or.inr ⟨register, bind_of_error (bind_of_error (cell_of_none set))⟩
    | some x =>
      have first : (do return (name, ← cell register) : Work (String × CellId)) session =
          .ok (name, x) session := bind_of_ok (cell_of_some set)
      rcases ih with ⟨bindings, found, read⟩ | ⟨missing, unset⟩
      · refine Or.inl ⟨(name, x) :: bindings, by rw [found]; rfl, ?_⟩
        rw [bind_of_ok first, bind_of_ok read]
        rfl
      · refine Or.inr ⟨missing, ?_⟩
        rw [bind_of_ok first, bind_of_error unset]

/-- **Several names are defined.** -/
theorem defineAll_logged (housed : session.Housed) (inside : env.index < session.store.tables.size)
    (items : List (String × String)) :
    Logged depth env session (.environment (.defineAll items))
      (result (workOnEnvironment depth env (.defineAll items)) session) := by
  unfold result
  rw [workOnEnvironment]
  rcases items_resolve items with ⟨bindings, resolved, read⟩ | ⟨missing, unset⟩
  · rw [bind_of_ok read]
    have ensures := defineAll_logs bindings inside
    cases ended : Environment.defineAll env bindings session.store with
    | ok _ store =>
      have logs := ensures.ok ended
      rw [bind_of_ok (onStore_of_ok ended)]
      exact ⟨bindings, .definedAll resolved, logs, housed.logs logs rfl rfl⟩
    | error failure store =>
      obtain ⟨done, item, rest, rfl, ⟨y, bound⟩, rfl, logs⟩ := ensures.error ended
      rw [bind_of_error (onStore_of_error ended)]
      exact ⟨done, .interrupted resolved bound, logs, housed.logs logs rfl rfl⟩
  · rw [bind_of_error unset]
    exact .unset housed missing

/-- **A batch of lines is carried out.** -/
theorem load_logged (housed : session.Housed) (inside : env.index < session.store.tables.size)
    (code : String) :
    Logged depth env session (.environment (.load code))
      (result (workOnEnvironment depth env (.load code)) session) := by
  unfold result
  rw [workOnEnvironment, load]
  have ensures : (Definitions.load depth env code).Ensures session.store _ _ :=
    defineLines_carried (Text.lines code.toList) 1 0
  cases ended : Definitions.load depth env code session.store with
  | ok count store =>
    obtain ⟨added, carried, rfl⟩ := ensures.ok ended
    have logs := carried.logs inside
    have loaded : onStore (Definitions.load depth env code) session = _ := onStore_of_ok ended
    rw [bind_assoc, bind_of_ok loaded]
    have said : Adds depth env session (.environment (.load code)) (.ok (.defined (0 + added.length)))
        added := by
      rw [Nat.zero_add]
      exact .loaded carried carried.length_added
    exact ⟨added, said, logs, housed.logs logs rfl rfl⟩
  | error failure store =>
    obtain ⟨done, line, rest, added, middle, split, carried, failed⟩ := ensures.error ended
    have logs := carried.logs inside
    -- The line that fails has left the tables as the lines before it did.
    have nothing : Logs env [] middle store := .of_tables (defineLine_tables failed)
    have whole := logs.trans nothing
    rw [List.append_nil] at whole
    rw [bind_assoc, bind_of_error (onStore_of_error ended)]
    exact ⟨added, .stopped split carried carried.length_added failed, whole,
      housed.logs whole rfl rfl⟩

/-- An environment is given a name. -/
theorem Housed.setEnvironment (housed : session.Housed) (inside : env.index < session.store.tables.size)
    (target : String) :
    Housed { session with environments := session.environments.set target env } := by
  refine ⟨fun name env' member => ?_, housed.nodup⟩
  rcases List.mem_cons.mp member with same | member
  · cases same
    exact inside
  · exact housed.inside name env' member

/-- **An environment is made.** -/
theorem create_logged (housed : session.Housed) (inside : env.index < session.store.tables.size)
    (target : String) (builtins : Bool) :
    Logged depth env session (.environment (.create target builtins))
      (result (workOnEnvironment depth env (.create target builtins)) session) := by
  unfold result
  rw [workOnEnvironment]
  have nothing : ∀ outcome, Adds depth env session (.environment (.create target builtins)) outcome [] :=
    fun _ => .other rfl
  cases builtins with
  | false =>
    have made : onStore Environment.create session =
        .ok session.store.allocTable.1 { session with store := session.store.allocTable.2 } :=
      onStore_of_ok rfl
    have logs : Logs env [] session.store session.store.allocTable.2 := logs_allocTable env
    have moved : Housed { session with store := session.store.allocTable.2 } :=
      housed.logs logs rfl rfl
    have created : createEnvironment false session = _ := made
    rw [bind_of_ok created]
    exact ⟨[], nothing _, logs, moved.setEnvironment inside_allocTable target⟩
  | true =>
    have moves := create_logs inside
    cases ended : Builtins.create session.store with
    | ok table store =>
      obtain ⟨logs, there⟩ := moves.ok table store ended
      have created : createEnvironment true session = _ :=
        (bind_of_ok (onStore_of_ok ended)).trans (bind_of_ok rfl)
      have moved : Housed { session with
          store := store
          events := .registeredBuiltins Builtins.all.length :: session.events } :=
        housed.logs logs rfl rfl
      rw [bind_of_ok created]
      exact ⟨[], nothing _, logs, moved.setEnvironment there target⟩
    | error failure store =>
      have logs := moves.error failure store ended
      have refused : createEnvironment true session = _ := bind_of_error (onStore_of_error ended)
      rw [bind_of_error refused]
      exact ⟨[], nothing _, logs, housed.logs logs rfl rfl⟩

/-! ### Steps -/

/-- **Every command is logged.** -/
theorem executeWith_logged (housed : session.Housed) (inside : env.index < session.store.tables.size)
    (evaluator : String) (command : Command) :
    Logged depth env session command (result (executeWith depth env evaluator command) session) := by
  have plain : command.defines = false → command.named? = none →
      Logged depth env session command (result (executeWith depth env evaluator command) session) := by
    intro defines named
    have keeps := executeWith_keeps depth env evaluator defines named session
    have unchanged : ∀ last : Session, last.scope = session.scope →
        Logs env [] session.store last.store ∧ last.Housed := by
      intro last same
      have logs : Logs env [] session.store last.store := .of_tables (congrArg Prod.fst same)
      exact ⟨logs, housed.logs logs rfl (congrArg Prod.snd same)⟩
    unfold result
    cases ended : executeWith depth env evaluator command session with
    | ok reply last => exact ⟨[], .other defines, unchanged last (keeps.ok reply last ended).1⟩
    | error refusal last => exact ⟨[], .other defines, unchanged last (keeps.error refusal last ended)⟩
  cases command with
  | environment command =>
    cases command with
    | create target builtins => exact create_logged housed inside target builtins
    | clone target =>
      exact ⟨[], .other rfl, .of_tables rfl, housed.setEnvironment inside target⟩
    | load code => exact load_logged housed inside code
    | define name register => exact define_logged housed inside name register
    | defineAll items => exact defineAll_logged housed inside items
    | _ => exact plain rfl rfl
  | _ => exact plain rfl rfl

variable {step : Step}

/-- A step that finds its environment and its evaluator carries out its command. -/
theorem execute_of_some {count : Nat} (found : session.environments.lookup step.env = some env)
    (counted : session.evaluators.lookup step.evaluator = some count) :
    execute depth step session = executeWith depth env step.evaluator step.command session := by
  have handle : environment step.env session = .ok env session := by
    show find session.environments step.env session = _
    rw [find, found]
    rfl
  have evaluator : evaluatorCount step.evaluator session = .ok count session := by
    rw [evaluatorCount_eq, counted]
  have required : requireEvaluator step.evaluator session = .ok () session := bind_of_ok evaluator
  rw [execute, bind_of_ok handle, bind_of_ok required]

/-- A step that does not find its evaluator does nothing. -/
theorem execute_of_unset (found : session.environments.lookup step.env = some env)
    (unset : session.evaluators.lookup step.evaluator = none) :
    execute depth step session = .error (.unset step.evaluator) session := by
  have handle : environment step.env session = .ok env session := by
    show find session.environments step.env session = _
    rw [find, found]
    rfl
  have evaluator : evaluatorCount step.evaluator session = .error (.unset step.evaluator) session := by
    rw [evaluatorCount_eq, unset]
  have required : requireEvaluator step.evaluator session = .error (.unset step.evaluator) session :=
    bind_of_error evaluator
  rw [execute, bind_of_ok handle, bind_of_error required]

/-- A step that does not find its environment does nothing. -/
theorem execute_of_none (missing : session.environments.lookup step.env = none) :
    execute depth step session = .error (.unset step.env) session := by
  have handle : environment step.env session = .error (.unset step.env) session := by
    show find session.environments step.env session = _
    rw [find, missing]
    rfl
  rw [execute, bind_of_error handle]

/-- **Every step is logged** in the environment that it finds. -/
theorem execute_logged (housed : session.Housed)
    (found : session.environments.lookup step.env = some env) :
    Logged depth env session step.command (result (execute depth step) session) := by
  unfold result
  cases counted : session.evaluators.lookup step.evaluator with
  | none =>
    rw [execute_of_unset found counted]
    exact .unset housed _
  | some count =>
    rw [execute_of_some found counted]
    exact executeWith_logged housed (housed.lookup found) step.evaluator step.command

theorem Housed.cleared (housed : session.Housed) : session.cleared.Housed :=
  ⟨housed.inside, housed.nodup⟩

/-- A step answers the outcome of its command. -/
theorem perform_result (depth : Nat) (step : Step) (session : Session) :
    ∃ answer, perform depth step session =
      .ok answer (result (execute depth step) session.cleared).2 ∧
      answer.outcome = (result (execute depth step) session.cleared).1 := by
  have clears : clearRecords session = .ok () session.cleared := rfl
  rw [perform, bind_of_ok clears]
  unfold result
  cases ended : execute depth step session.cleared with
  | ok reply later =>
    have out : ByNeed.Session.outcome (execute depth step) session.cleared = .ok (.ok reply) later := by
      simp only [ByNeed.Session.outcome, ended]
    rw [bind_of_ok out]
    exact ⟨_, rfl, rfl⟩
  | error refusal later =>
    have out : ByNeed.Session.outcome (execute depth step) session.cleared =
        .ok (.error refusal) later := by
      simp only [ByNeed.Session.outcome, ended]
    rw [bind_of_ok out]
    exact ⟨_, rfl, rfl⟩

theorem after_of_ok {α : Type} {work : Work α} {a : α} {later : Session}
    (ended : work session = .ok a later) : after work session = later := by
  unfold Session.after
  rw [ended]

/-- **What one step does to the bindings**, whether it finds its environment or not. -/
theorem perform_logs (depth : Nat) (step : Step) (housed : session.Housed) :
    (∀ t, session.store.table t <+: (after (perform depth step) session).store.table t) ∧
      (after (perform depth step) session).Housed := by
  obtain ⟨answer, performed, -⟩ := perform_result depth step session
  rw [after_of_ok performed]
  cases found : session.environments.lookup step.env with
  | none =>
    unfold result
    rw [execute_of_none (show session.cleared.environments.lookup step.env = none from found)]
    exact ⟨fun t => List.prefix_refl _, housed.cleared⟩
  | some env =>
    obtain ⟨added, -, logs, housed'⟩ := execute_logged housed.cleared found
    exact ⟨logs.isPrefix, housed'⟩

/-! ### Histories -/

/-- **Between two sessions the bindings are written once**: the earlier ones are the first of the
later ones, in their order, no name is bound twice, and a name that was bound is bound to the very
same cell. -/
structure WriteOnce (earlier later : Session) : Prop where
  isPrefix : ∀ t, earlier.store.table t <+: later.store.table t
  nodup : ∀ t, (later.store.names t).Nodup
  bound : ∀ t name x, (earlier.store.table t).lookup name = some x →
    (later.store.table t).lookup name = some x

/-- The bindings that a handle sees. -/
def bindings (session : Session) (handle : String) : Option Table :=
  (session.environments.lookup handle).map session.store.table

/-- Along steps the tables are extended. -/
theorem continued_logs (history : List (Nat × Step)) (housed : session.Housed) :
    (∀ t, session.store.table t <+: (session.continued history).store.table t) ∧
      (session.continued history).Housed := by
  induction history generalizing session with
  | nil => exact ⟨fun t => List.prefix_refl _, housed⟩
  | cons next rest ih =>
    obtain ⟨depth, step⟩ := next
    obtain ⟨first, housed'⟩ := perform_logs depth step housed
    obtain ⟨further, housed''⟩ := ih housed'
    exact ⟨fun t => (first t).trans (further t), housed''⟩

theorem housed_start : start.Housed := by
  have tables : start.store.tables.size = 1 := by decide +kernel
  have named : start.environments = [(firstEnvironment, ⟨0⟩)] := by decide +kernel
  have distinct : (start.store.names ⟨0⟩).Nodup := by decide +kernel
  refine ⟨fun name env member => ?_, fun t => ?_⟩
  · rw [named] at member
    cases List.mem_singleton.mp member
    rw [tables]
    exact Nat.one_pos
  · by_cases inside : t.index < start.store.tables.size
    · obtain ⟨i⟩ := t
      obtain rfl : i = 0 := by
        rw [tables] at inside
        exact Nat.lt_one_iff.mp inside
      exact distinct
    · simp [Store.names, Store.table, Array.getD, inside]

theorem housed_reached (history : List (Nat × Step)) : (reached history).Housed :=
  (continued_logs history housed_start).2

/-- **Between a session and one that follows it the bindings are written once.** -/
theorem reached_writeOnce (history more : List (Nat × Step)) :
    WriteOnce (reached history) (reached (history ++ more)) := by
  rw [reached_append]
  obtain ⟨extended, housed⟩ := continued_logs more (housed_reached history)
  refine ⟨extended, housed.nodup, fun t name x found => ?_⟩
  obtain ⟨added, split⟩ := extended t
  rw [← split, List.lookup_append, found]
  rfl

/-! ### Handles -/

theorem onStore_keeps_handles {α : Type} (computation : Eval α) :
    Keeps Session.environments (onStore computation) := by
  intro session
  constructor
  · intro a later ended
    cases middle : computation session.store with
    | ok b store =>
      rw [onStore_of_ok middle] at ended
      cases ended
      exact ⟨rfl, trivial⟩
    | error failure store =>
      rw [onStore_of_error middle] at ended
      cases ended
  · intro refusal later ended
    cases middle : computation session.store with
    | ok b store =>
      rw [onStore_of_ok middle] at ended
      cases ended
    | error failure store =>
      rw [onStore_of_error middle] at ended
      cases ended
      rfl

/-- The environment of a name. -/
def handle (name : String) (session : Session) : Option TableId :=
  session.environments.lookup name

theorem setEnvironment_keeps_handle (other : target ≠ name) (env : TableId) :
    Keeps (handle name) (setEnvironment target env) := by
  refine .change fun session => ?_
  have mismatch : (name == target) = false := by simpa using Ne.symm other
  show ((target, env) :: session.environments).lookup name = _
  rw [List.lookup_cons, mismatch]
  rfl

/-- A command that does not give a name anew leaves its environment as it is. -/
theorem executeWith_keeps_handle (depth : Nat) (env : TableId) (evaluator : String)
    (other : command.named? ≠ some name) :
    Keeps (handle name) (executeWith depth env evaluator command) := by
  have stored : ∀ {α : Type} (computation : Eval α), Keeps (handle name) (onStore computation) :=
    fun computation => (onStore_keeps_handles computation).of_view (List.lookup name)
  have plain : command.defines = false → command.named? = none →
      Keeps (handle name) (executeWith depth env evaluator command) := fun defines named =>
    (executeWith_keeps depth env evaluator defines named).of_view fun scope => scope.2.lookup name
  have emits : ∀ event, Keeps (handle name) (emit event) := fun _ => .change fun _ => rfl
  cases command with
  | environment command =>
    cases command with
    | create target builtins =>
      have created : Keeps (handle name) (createEnvironment builtins) := by
        cases builtins with
        | true => exact (stored _).bind fun _ => (emits _).bind fun _ => .pure _
        | false =>
          show Keeps (handle name) (onStore Environment.create)
          exact stored _
      have different : target ≠ name := fun same => other (congrArg some same)
      exact created.bind fun table => (setEnvironment_keeps_handle different table).bind fun _ =>
        .pure _
    | clone target =>
      have different : target ≠ name := fun same => other (congrArg some same)
      exact (setEnvironment_keeps_handle different env).bind fun _ => .pure _
    | load code =>
      exact ((stored _).bind fun _ => (emits _).bind fun _ => .pure _).bind fun _ => .pure _
    | define name' register =>
      exact (register_respects register).bind fun _ => (stored _).bind fun _ => .pure _
    | defineAll items =>
      refine Respects.bind (Respects.mapM (fun item => ?_) items) fun _ => (stored _).bind fun _ => .pure _
      exact (register_respects item.2).bind fun _ => .pure _
    | _ => exact plain rfl rfl
  | _ => exact plain rfl rfl

theorem continued_handle (more : List (Nat × Step))
    (others : ∀ item ∈ more, item.2.command.named? ≠ some name) :
    handle name (session.continued more) = handle name session := by
  induction more generalizing session with
  | nil => rfl
  | cons next rest ih =>
    obtain ⟨depth, step⟩ := next
    have other := others (depth, step) List.mem_cons_self
    have stepped : handle name (after (perform depth step) session) = handle name session :=
      perform_respects depth step
        (fun env => executeWith_keeps_handle depth env step.evaluator other) session
    exact (ih fun item member => others item (List.mem_cons_of_mem _ member)).trans stepped

/-- The session after a clone, in which both names stand for one table. -/
theorem handle_after_clone {depth count : Nat} {source : String}
    (found : session.environments.lookup source = some env)
    (counted : session.evaluators.lookup evaluator = some count) :
    handle target (after (perform depth ⟨source, evaluator, .environment (.clone target)⟩) session) =
        some env ∧
      handle source (after (perform depth ⟨source, evaluator, .environment (.clone target)⟩) session) =
        some env := by
  have cloned : execute depth ⟨source, evaluator, .environment (.clone target)⟩ session.cleared =
      .ok .done { session.cleared with environments := session.environments.set target env } :=
    execute_of_some found counted
  rw [after_perform, after_of_ok cloned]
  refine ⟨List.lookup_cons_self, ?_⟩
  by_cases same : source = target
  · rw [same]
    exact List.lookup_cons_self
  · have mismatch : (source == target) = false := by simpa using same
    show ((target, env) :: session.environments).lookup source = some env
    rw [List.lookup_cons, mismatch]
    exact found

/-! ### The log -/

/-- **The environment is a log that is written once**, shared by its clones. After any steps and any
more, the bindings are those of before with others after them, no name is bound twice, and a bound
name keeps its cell. What a step adds to the table of its environment is what its command and its
outcome say, and it leaves the other tables as they are. And a clone sees the bindings that the
environment it was cloned from sees, after all steps that give neither of their names anew. -/
theorem bindings_write_once (history more : List (Nat × Step)) :
    WriteOnce (reached history) (reached (history ++ more)) ∧
    (∀ (depth : Nat) (step : Step) (env : TableId),
      (reached history).environments.lookup step.env = some env →
      ∃ answer later added, perform depth step (reached history) = .ok answer later ∧
        later = reached (history ++ [(depth, step)]) ∧
        Adds depth env (reached history).cleared step.command answer.outcome added ∧
        later.store.table env = (reached history).store.table env ++ added ∧
        ∀ t, t ≠ env → t.index < (reached history).store.tables.size →
          later.store.table t = (reached history).store.table t) ∧
    ∀ (depth : Nat) (source target evaluator : String) (env : TableId) (count : Nat),
      (reached history).environments.lookup source = some env →
      (reached history).evaluators.lookup evaluator = some count →
      (∀ item ∈ more, item.2.command.named? ≠ some source ∧ item.2.command.named? ≠ some target) →
      let clone := (depth, ⟨source, evaluator, .environment (.clone target)⟩)
      let later := reached (history ++ clone :: more)
      later.bindings source = some (later.store.table env) ∧
        later.bindings target = some (later.store.table env) := by
  refine ⟨reached_writeOnce history more, fun depth step env found => ?_,
    fun depth source target evaluator env count found counted others => ?_⟩
  · obtain ⟨answer, performed, said⟩ := perform_result depth step (reached history)
    obtain ⟨added, adds, logs, -⟩ := execute_logged (housed_reached history).cleared found
    refine ⟨answer, _, added, performed, ?_, by rw [said]; exact adds, logs.table, logs.others⟩
    rw [reached_append]
    exact (after_of_ok performed).symm
  · intro clone later
    obtain ⟨cloned, kept⟩ := handle_after_clone found counted
    have onward : later =
        (after (perform depth clone.2) (reached history)).continued more := by
      show reached (history ++ clone :: more) = _
      rw [reached_append]
      rfl
    have source' : handle source later = some env := by
      rw [onward, continued_handle more fun item member => (others item member).1]
      exact kept
    have target' : handle target later = some env := by
      rw [onward, continued_handle more fun item member => (others item member).2]
      exact cloned
    exact ⟨congrArg (Option.map later.store.table) source',
      congrArg (Option.map later.store.table) target'⟩

/-- An environment without bindings is cloned, and a batch that is carried out through the clone fails
in its fourth line: both see the bindings of the lines before. -/
theorem bindings_write_once_cloned :
    let history := [(9, Step.ofCommand (.environment (.create "bare" false)))]
    let clone : Nat × Step := (9, ⟨"bare", firstEvaluator, .environment (.clone "twin")⟩)
    let load : Nat × Step :=
      (9, ⟨"twin", firstEvaluator, .environment (.load "a = 1\n\nb = a\na = 2\nc = 3")⟩)
    let later := reached (history ++ [clone, load])
    later.bindings "twin" = later.bindings "bare" ∧
      (later.bindings "bare").map (List.map Prod.fst) = some ["a", "b"] ∧
      WriteOnce (reached history) later ∧
      ∃ answer last added, perform 9 load.2 (reached (history ++ [clone])) = .ok answer last ∧
        Adds 9 ⟨1⟩ (reached (history ++ [clone])).cleared load.2.command answer.outcome added ∧
        last.store.table ⟨1⟩ = added := by
  intro history clone load later
  obtain ⟨bare, twin⟩ := (bindings_write_once history [load]).2.2 9 "bare" "twin" firstEvaluator ⟨1⟩ 0
    (by decide +kernel) (by decide +kernel) (by simp [load, Command.named?])
  obtain ⟨answer, last, added, performed, -, adds, table, -⟩ :=
    (bindings_write_once (history ++ [clone]) []).2.1 9 load.2 ⟨1⟩ (by decide +kernel)
  have empty : (reached (history ++ [clone])).store.table ⟨1⟩ = [] := by decide +kernel
  rw [empty, List.nil_append] at table
  refine ⟨twin.trans bare.symm, by decide +kernel, ?_, answer, last, added, performed, adds, table⟩
  exact (bindings_write_once history [clone, load]).1

end Session

end ByNeed
