/-
**Rounds are steady after a warm-up.**

Once an expression has been evaluated, evaluating it again and again is always the same: each round
forces only cells that it has added itself, answers what every round after the first has answered, and
forces as many cells.

A second run is not a copy of the first. It finds values where the first found suspensions, so it
does at once what the first put off; but the cells that it forces are in the places of those that the
first forced (`eval_retraces`), so whatever it needs of the cells that were there has its value
already. Every further round starts from the same cells, with more of them behind that it does not
reach, and so mirrors the second (`eval_mirrors`).

* `eval_steady`: **evaluating again changes no cell that was there**, and its verdict and its count do
  not depend on what further cells there are;
* `rounds_steady`: the same of the rounds of a session, and of the number of forced cells that is
  reported for a round.
-/

import ByNeed.Proofs.Rounds.Mirror
import ByNeed.Proofs.Rounds.Retrace
import ByNeed.Proofs.Steps

namespace ByNeed

/-- **Evaluating again is steady**, in the store that the first evaluation has left or in one that
goes beyond it. -/
theorem eval_steady {warmUp : Nat} {env : TableId} {code answer : String} {store warm : Store}
    (represented : store.Represented)
    (answered : Interpreter.eval warmUp env code store = .ok answer warm) (depth : Nat)
    {other : Store} (extended : warm.Extended other) :
    (Interpreter.eval depth env code).verdict other = (Interpreter.eval depth env code).verdict warm ∧
      other.Extended ((Interpreter.eval depth env code).after other) ∧
      ((Interpreter.eval depth env code).after other).forced + warm.forced =
        ((Interpreter.eval depth env code).after warm).forced + other.forced := by
  obtain ⟨notes, e, x, accounts, listed, composed, seen⟩ := eval_rehearses represented answered
  have warmed := ((eval_progress warmUp env code represented).ok answer warm answered).1.represented
  have mirrors := eval_mirrors depth env listed (Mirrored.start warmed extended)
  obtain ⟨same, mirrored⟩ := mirrors.verdict_eq
  have kept := eval_retraces accounts listed composed seen depth extended
  refine ⟨same, ⟨?_, fun y there => ?_, kept.tables.trans extended.tables.symm⟩, mirrored.forced⟩
  · have has := mirrored.has
    have size := mirrored.size
    omega
  · by_cases old : warm.Has y
    · rw [kept.kept y old, extended.kept y old]
    · exact mirrored.between y old there

/-- The outcome of a computation is its verdict. -/
theorem Eval.outcome_eq {α : Type} (computation : Eval α) (store : Store) :
    Eval.outcome computation store = .ok (computation.verdict store) (computation.after store) := by
  unfold Eval.outcome Eval.verdict Eval.after
  cases computation store <;> rfl

namespace Session

variable {α : Type} {session later : Session} {name env evaluator code : String} {table : TableId}
  {count depth : Nat}

/-! ### Rounds -/

/-- Evaluate an expression. -/
def round (env evaluator code : String) : Step :=
  ⟨env, evaluator, .demand (.eval code)⟩

/-- The outcome of a round whose evaluation has a verdict. -/
def replied (verdict : Except Failure String) : Except Refusal Reply :=
  (verdict.map .text).mapError .failed

/-- The store in which a round starts to evaluate. -/
def opening (session : Session) (count : Nat) : Store :=
  recount session.cleared.store count

/-- The session after a round. -/
def closing (session : Session) (depth : Nat) (table : TableId) (evaluator code : String)
    (count : Nat) : Session :=
  session.cleared.counted evaluator
    ((Interpreter.eval depth table code).after (session.opening count))

theorem forcing_eq {computation : Eval α} (set : session.evaluators.lookup name = some count) :
    forcing name computation session =
      ofExcept (computation.verdict (recount session.store count))
        (session.counted name (computation.after (recount session.store count))) :=
  forcing_of_outcome set (Eval.outcome_eq computation _)

/-- A computation on the store that has answered. -/
theorem onStore_eq_ok {computation : Eval α} {a : α}
    (ended : onStore computation session = .ok a later) :
    ∃ store, computation session.store = .ok a store ∧ later = { session with store := store } := by
  cases middle : computation session.store with
  | ok b store =>
    rw [onStore_of_ok middle] at ended
    cases ended
    exact ⟨store, rfl, rfl⟩
  | error failure store =>
    rw [onStore_of_error middle] at ended
    cases ended

/-- What was found is bound. -/
theorem find_eq_ok {registry : Registry α} {a : α}
    (ended : find registry name session = .ok a later) :
    registry.lookup name = some a ∧ later = session := by
  unfold find at ended
  cases found : registry.lookup name with
  | none =>
    rw [found] at ended
    cases ended
  | some b =>
    rw [found] at ended
    cases ended
    exact ⟨rfl, rfl⟩

theorem evaluatorCount_eq_ok (ended : evaluatorCount name session = .ok count later) :
    session.evaluators.lookup name = some count ∧ later = session :=
  find_eq_ok ended

theorem environment_eq_ok (ended : environment name session = .ok table later) :
    session.environments.lookup name = some table ∧ later = session :=
  find_eq_ok ended

/-- A computation that has answered, and was counted for an evaluator. -/
theorem forcing_eq_ok {computation : Eval α} {a : α}
    (ended : forcing name computation session = .ok a later) :
    ∃ count store, session.evaluators.lookup name = some count ∧
      computation (recount session.store count) = .ok a store ∧
      later = session.counted name store := by
  obtain ⟨count, middle, counted, -⟩ := bind_eq_ok ended
  obtain ⟨set, -⟩ := evaluatorCount_eq_ok counted
  rw [forcing_eq set] at ended
  cases verdict : computation.verdict (recount session.store count) with
  | ok b =>
    rw [verdict] at ended
    cases ended
    exact ⟨count, _, set, Eval.eq_ok_of_verdict verdict, rfl⟩
  | error failure =>
    rw [verdict] at ended
    cases ended

theorem environment_eq (session : Session) (name : String) :
    environment name session =
      match session.environments.lookup name with
      | some table => .ok table session
      | none => .error (.unset name) session := by
  show find session.environments name session = _
  unfold find
  cases session.environments.lookup name <;> rfl

/-- A batch of definitions leaves a session sound, and the environments of its names. -/
theorem load_eq_ok {definitions : String}
    (ended : load depth table definitions session = .ok count later)
    (sound : session.Sound) : later.Sound ∧ later.environments = session.environments := by
  have moves : Moves (Advances (.ofCommand (.environment (.load definitions))))
      (load depth table definitions) session fun _ _ => True :=
    load_advances depth table definitions sound
  refine ⟨(moves.ok count later ended).1.sound, ?_⟩
  obtain ⟨bound, middle, stored, rest⟩ := bind_eq_ok ended
  obtain ⟨store, -, rfl⟩ := onStore_eq_ok stored
  cases rest
  rfl

/-- A computation whose answer in a fresh session is known. -/
theorem eq_ok_of_answer {work : Work α} {a : α} (answered : (answer work).1.toOption = some a) :
    ∃ later, work (reached []) = .ok a later := by
  unfold answer at answered
  rw [reached, continued, List.foldl_nil]
  cases ended : work start with
  | ok b later =>
    rw [ended] at answered
    cases answered
    exact ⟨later, rfl⟩
  | error refusal later =>
    rw [ended] at answered
    cases answered

/-- A step that has carried out its command. -/
theorem perform_of_outcome {step : Step} {result : Except Refusal Reply}
    (executed : outcome (execute depth step) session.cleared = .ok result later) :
    perform depth step session =
      .ok ⟨result, later.evaluators.lookup step.evaluator, later.store.trace.reverse⟩ later := by
  have clears : clearRecords session = .ok () session.cleared := rfl
  rw [perform, bind_of_ok clears, bind_of_ok executed]
  rfl

/-- **A round** evaluates the expression with the count of its evaluator, and keeps the new count. -/
theorem perform_round (depth : Nat) (code : String)
    (found : session.environments.lookup env = some table)
    (set : session.evaluators.lookup evaluator = some count) :
    ∃ answer, perform depth (round env evaluator code) session =
        .ok answer (session.closing depth table evaluator code count) ∧
      answer.outcome =
        replied ((Interpreter.eval depth table code).verdict (session.opening count)) ∧
      answer.count = some (session.closing depth table evaluator code count).store.forced := by
  have located : environment env session.cleared = .ok table session.cleared := by
    rw [environment_eq, show session.cleared.environments.lookup env = some table from found]
  have counted : evaluatorCount evaluator session.cleared = .ok count session.cleared := by
    rw [evaluatorCount_eq, show session.cleared.evaluators.lookup evaluator = some count from set]
  have required : requireEvaluator evaluator session.cleared = .ok () session.cleared :=
    bind_of_ok counted
  have forces : forcing evaluator (Interpreter.eval depth table code) session.cleared = ofExcept
      ((Interpreter.eval depth table code).verdict (session.opening count))
      (session.closing depth table evaluator code count) := forcing_eq set
  have executes : execute depth (round env evaluator code) session.cleared =
      (forcing evaluator (Interpreter.eval depth table code) >>= fun text =>
        pure (Reply.text text)) session.cleared := by
    rw [execute, round, bind_of_ok located, bind_of_ok required]
    rfl
  refine ⟨_, perform_of_outcome ?_, rfl, List.lookup_cons_self⟩
  unfold outcome
  rw [executes]
  cases verdict : (Interpreter.eval depth table code).verdict (session.opening count) with
  | ok text =>
    rw [verdict] at forces
    rw [bind_of_ok forces]
    rfl
  | error failure =>
    rw [verdict] at forces
    rw [bind_of_error forces]
    rfl

/-- A round that answers a text has found its environment and its evaluator, and has evaluated the
expression to the text. -/
theorem round_answered {answer : Answer} {text : String}
    (performed : perform depth (round env evaluator code) session = .ok answer later)
    (answered : answer.outcome = .ok (.text text)) :
    ∃ table count, session.environments.lookup env = some table ∧
      session.evaluators.lookup evaluator = some count ∧
      Interpreter.eval depth table code (session.opening count) = .ok text later.store ∧
      later = session.closing depth table evaluator code count := by
  have refused : ∀ {refusal last},
      execute depth (round env evaluator code) session.cleared ≠ .error refusal last := by
    intro refusal last executed
    have fails : outcome (execute depth (round env evaluator code)) session.cleared =
        .ok (.error refusal) last := by
      unfold outcome
      rw [executed]
    rw [perform_of_outcome fails] at performed
    cases performed
    cases answered
  cases found : session.environments.lookup env with
  | none =>
    have unset : environment env session.cleared = .error (.unset env) session.cleared := by
      rw [environment_eq, show session.cleared.environments.lookup env = none from found]
    exact (refused (bind_of_error unset)).elim
  | some table =>
    have located : environment env session.cleared = .ok table session.cleared := by
      rw [environment_eq, show session.cleared.environments.lookup env = some table from found]
    cases set : session.evaluators.lookup evaluator with
    | none =>
      have unset : evaluatorCount evaluator session.cleared =
          .error (.unset evaluator) session.cleared := by
        rw [evaluatorCount_eq, show session.cleared.evaluators.lookup evaluator = none from set]
      have required : requireEvaluator evaluator session.cleared =
          .error (.unset evaluator) session.cleared := bind_of_error unset
      exact (refused ((bind_of_ok located).trans (bind_of_error required))).elim
    | some count =>
      obtain ⟨answer', performed', outcome', -⟩ := perform_round depth code found set
      rw [performed'] at performed
      cases performed
      refine ⟨table, count, rfl, rfl, Eval.eq_ok_of_verdict ?_, rfl⟩
      rw [outcome'] at answered
      cases verdict : (Interpreter.eval depth table code).verdict (session.opening count) with
      | ok text' =>
        rw [verdict] at answered
        cases answered
        rfl
      | error failure =>
        rw [verdict] at answered
        cases answered

/-! ### Steady rounds -/

/-- **What a round does** in a session: it has an outcome, adds to the count of its evaluator, and
forces no cell that was there before it, so none that an environment leads to. -/
structure Steady (depth : Nat) (step : Step) (outcome : Except Refusal Reply) (forced : Nat)
    (before : Session) : Prop where
  outcome : ∃ answer later, perform depth step before = .ok answer later ∧ answer.outcome = outcome
  count : ∃ count, before.evaluators.lookup step.evaluator = some count ∧
    (after (perform depth step) before).evaluators.lookup step.evaluator = some (count + forced)
  unforced : ∀ x, before.store.Has x →
    x ∉ replacedCells (after (perform depth step) before).store.changes
  kept : ∀ x, before.store.Has x →
    (after (perform depth step) before).store.cell x = before.store.cell x

/-- **A session is warm**: what it has of the cells that an evaluation has left is as it was, and the
environment and the evaluator of the rounds are set. -/
structure Warm (base : Store) (env evaluator : String) (table : TableId) (session : Session) :
    Prop where
  represented : session.store.Represented
  extended : base.Extended session.store
  located : session.environments.lookup env = some table
  counted : ∃ count, session.evaluators.lookup evaluator = some count

section Warm

variable {warmUp : Nat} {text : String} {store base : Store}
  (represented : store.Represented)
  (answered : Interpreter.eval warmUp table code store = .ok text base)

/-- How many cells are forced when an expression is evaluated. -/
def forcedBy (depth : Nat) (table : TableId) (code : String) (store : Store) : Nat :=
  ((Interpreter.eval depth table code).after store).forced - store.forced

include represented answered

/-- **A round in a warm session is steady**, and leaves the session warm. -/
theorem Warm.round (warm : Warm base env evaluator table session) (depth : Nat) :
    Steady depth (round env evaluator code)
        (replied ((Interpreter.eval depth table code).verdict base)) (forcedBy depth table code base)
        session ∧
      Warm base env evaluator table
        (Session.after (perform depth (Session.round env evaluator code)) session) := by
  obtain ⟨count, set⟩ := warm.counted
  obtain ⟨answer, performed, outcome, -⟩ := perform_round depth code warm.located set
  have ended : Session.after (perform depth (Session.round env evaluator code)) session =
      session.closing depth table evaluator code count := by
    unfold Session.after
    rw [performed]
  have opened : (session.opening count).Represented := warm.represented.congr rfl rfl
  have progress := (eval_progress depth table code opened).after
  have extended : base.Extended (session.opening count) :=
    ⟨warm.extended.le, warm.extended.kept, warm.extended.tables⟩
  obtain ⟨same, beyond, forced⟩ := eval_steady represented answered depth extended
  have steady : ∀ x, session.store.Has x →
      (session.closing depth table evaluator code count).store.cell x = session.store.cell x :=
    fun x there => beyond.kept x there
  refine ⟨⟨⟨answer, _, performed, by rw [outcome, same]⟩, ⟨count, set, ?_⟩, ?_, ?_⟩, ?_⟩
  · rw [ended]
    show ((evaluator, _) :: session.evaluators).lookup evaluator = _
    have base_le : base.forced ≤ ((Interpreter.eval depth table code).after base).forced := by
      have warmed := (eval_progress warmUp table code represented).ok text base answered
      obtain ⟨made, -, counts⟩ := (eval_progress depth table code warmed.1.represented).after.counts
      omega
    have opening_eq : (session.opening count).forced = count := rfl
    rw [List.lookup_cons_self, forcedBy]
    refine congrArg some ?_
    omega
  · intro x there
    rw [ended]
    exact progress.evolves.not_replaced (List.append_nil _).symm there (steady x there)
  · intro x there
    rw [ended]
    exact steady x there
  · rw [ended]
    exact ⟨progress.represented, extended.trans beyond, warm.located, _, List.lookup_cons_self⟩

/-- **Rounds in a warm session are steady**, however many and with whatever depths. -/
theorem Warm.rounds (warm : Warm base env evaluator table session) (depths : List Nat) (depth : Nat) :
    Steady depth (Session.round env evaluator code)
      (replied ((Interpreter.eval depth table code).verdict base)) (forcedBy depth table code base)
      (session.continued (depths.map fun depth => (depth, Session.round env evaluator code))) := by
  induction depths generalizing session with
  | nil => exact (warm.round represented answered depth).1
  | cons next rest ih => exact ih (warm.round represented answered next).2

end Warm

/-- A session in which an expression has been evaluated is warm. -/
theorem warm_counted {warmUp : Nat} {text : String} {store base : Store}
    (represented : store.Represented)
    (answered : Interpreter.eval warmUp table code store = .ok text base)
    (located : session.environments.lookup env = some table) :
    Warm base env evaluator table (session.counted evaluator base) :=
  ⟨((eval_progress warmUp table code represented).ok text base answered).1.represented, .refl base,
    located, _, List.lookup_cons_self⟩

/-- **What is reported for a round** was found by evaluating the expression twice. -/
theorem forcedPerRound_eq_ok {definitions : String} {forced : Nat} (sound : session.Sound)
    (reported : forcedPerRound depth definitions code session = .ok forced later) :
    ∃ table store base text text', store.Represented ∧
      Interpreter.eval depth table code store = .ok text base ∧
      Interpreter.eval depth table code base = .ok text' later.store ∧
      later.environments.lookup firstEnvironment = some table ∧
      later.evaluators.lookup firstEvaluator = some later.store.forced ∧
      forced = later.store.forced - base.forced := by
  obtain ⟨table, session₁, found, rest⟩ := bind_eq_ok reported
  obtain ⟨located, rfl⟩ := environment_eq_ok found
  obtain ⟨bound, session₂, loaded, rest⟩ := bind_eq_ok rest
  obtain ⟨text, session₃, warmed, rest⟩ := bind_eq_ok rest
  obtain ⟨before, session₄, counted, rest⟩ := bind_eq_ok rest
  obtain ⟨text', session₅, evaluated, rest⟩ := bind_eq_ok rest
  obtain ⟨after, session₆, counted', rest⟩ := bind_eq_ok rest
  cases rest
  obtain ⟨sound', kept⟩ := load_eq_ok loaded sound
  obtain ⟨count, base, -, answered, rfl⟩ := forcing_eq_ok warmed
  obtain ⟨set, rfl⟩ := evaluatorCount_eq_ok counted
  obtain ⟨count', store, set', answered', rfl⟩ := forcing_eq_ok evaluated
  obtain ⟨set'', rfl⟩ := evaluatorCount_eq_ok counted'
  -- The evaluator has the count of the store after each evaluation.
  cases set.symm.trans List.lookup_cons_self
  cases set'.symm.trans List.lookup_cons_self
  cases set''.symm.trans List.lookup_cons_self
  refine ⟨table, recount session₂.store count, base, text, text', sound'.represented.congr rfl rfl,
    answered, answered', ?_, List.lookup_cons_self, rfl⟩
  show session₂.environments.lookup firstEnvironment = some table
  rw [kept, located]

/-- **Rounds are steady after a warm-up.** Once a round has answered, every further round forces no
cell that was there before it, has the same outcome, and adds the same to the count of its evaluator,
for the depth it is given and whatever depths those before it were given. And this is the number that
is reported for a round: further rounds answer, and add it to the count. -/
theorem rounds_steady (history : List (Nat × Step)) (code : String) :
    (∀ (env evaluator : String) (warmUp : Nat) (answer : Answer) (text : String) (warm : Session),
      perform warmUp (round env evaluator code) (reached history) = .ok answer warm →
      answer.outcome = .ok (.text text) →
      ∃ (outcome : Nat → Except Refusal Reply) (forced : Nat → Nat),
        ∀ (depths : List Nat) (depth : Nat),
          Steady depth (round env evaluator code) (outcome depth) (forced depth)
            (warm.continued (depths.map fun depth => (depth, round env evaluator code)))) ∧
    ∀ (depth : Nat) (definitions : String) (forced : Nat) (last : Session),
      forcedPerRound depth definitions code (reached history) = .ok forced last →
      ∃ text, ∀ rounds : Nat,
        Steady depth (Step.ofCommand (.demand (.eval code))) (.ok (.text text)) forced
          (last.continued
            (List.replicate rounds (depth, Step.ofCommand (.demand (.eval code))))) := by
  have sound := sound_reached history
  constructor
  · intro env evaluator warmUp answer text warm performed answered
    obtain ⟨table, count, located, -, evaluated, rfl⟩ := round_answered performed answered
    have opened : ((reached history).opening count).Represented := sound.represented.congr rfl rfl
    have warmed : Warm _ env evaluator table
        ((reached history).closing warmUp table evaluator code count) :=
      warm_counted opened evaluated located
    exact ⟨_, _, fun depths depth => warmed.rounds opened evaluated depths depth⟩
  · intro depth definitions forced last reported
    obtain ⟨table, store, base, text, text', represented, warmed, evaluated, located, set, rfl⟩ :=
      forcedPerRound_eq_ok sound reported
    have progress := ((eval_progress depth table code represented).ok text base warmed).1
    have progress' := ((eval_progress depth table code progress.represented).ok text' _ evaluated).1
    have verdict : (Interpreter.eval depth table code).verdict base = .ok text' := by
      unfold Eval.verdict
      rw [evaluated]
    have left : (Interpreter.eval depth table code).after base = last.store := by
      unfold Eval.after
      rw [evaluated]
    obtain ⟨-, beyond, -⟩ := eval_steady represented warmed depth (.refl base)
    have warm : Warm base firstEnvironment firstEvaluator table last :=
      ⟨progress'.represented, left ▸ beyond, located, _, set⟩
    refine ⟨text', fun rounds => ?_⟩
    have steady := warm.rounds represented warmed (List.replicate rounds depth) depth
    rw [List.map_replicate, verdict, forcedBy, left] at steady
    exact steady

/-- Adding up the numbers to three forces 27 cells for the first time, and 25 in every round after
that. -/
theorem rounds_steady_sum :
    let definitions := "sum = ap ap s ap ap c ap eq 0 0 ap ap s add ap ap b sum dec"
    let define := (100, Step.ofCommand (.environment (.load definitions)))
    let eval := round firstEnvironment firstEvaluator "ap sum 3"
    (∃ answer warm, perform 100 eval (reached [define]) = .ok answer warm ∧
      answer.outcome = .ok (.text "6") ∧ answer.count = some 27 ∧
      ∃ (outcome : Nat → Except Refusal Reply) (forced : Nat → Nat),
        ∀ (depths : List Nat) (depth : Nat),
          Steady depth eval (outcome depth) (forced depth)
            (warm.continued (depths.map fun depth => (depth, eval)))) ∧
    ∃ last, forcedPerRound 100 definitions "ap sum 3" (reached []) = .ok 25 last ∧
      ∃ text, ∀ rounds : Nat,
        Steady 100 eval (.ok (.text text)) 25
          (last.continued (List.replicate rounds (100, eval))) := by
  intro definitions define eval
  constructor
  · obtain ⟨located, set⟩ : (reached [define]).environments.lookup firstEnvironment = some ⟨0⟩ ∧
        (reached [define]).evaluators.lookup firstEvaluator = some 0 := by decide +kernel
    obtain ⟨verdict, forced⟩ :
        (Interpreter.eval 100 ⟨0⟩ "ap sum 3").verdict ((reached [define]).opening 0) = .ok "6" ∧
        ((reached [define]).closing 100 ⟨0⟩ firstEvaluator "ap sum 3" 0).store.forced = 27 := by
      decide +kernel
    obtain ⟨answer, performed, outcome, count⟩ := perform_round 100 "ap sum 3" located set
    rw [verdict] at outcome
    rw [forced] at count
    exact ⟨answer, _, performed, outcome, count,
      (rounds_steady [define] "ap sum 3").1 _ _ 100 answer "6" _ performed outcome⟩
  · have reported : (answer (forcedPerRound 100 definitions "ap sum 3")).1.toOption = some 25 := by
      decide +kernel
    obtain ⟨last, ended⟩ := eq_ok_of_answer reported
    exact ⟨last, ended, (rounds_steady [] "ap sum 3").2 100 definitions 25 last ended⟩

end Session

end ByNeed
