/-
**Building forces nothing.**

Applying cells, taking halves, reading texts and defining names are put together from a few steps:
cells are added, names are looked up and bound, and a cell is asked for its value, if it holds one;
of a suspension such a computation sees no more than that it is there (`Eval.Builds`). However long
the chain of applications that it sets off, and however it ends, it leaves what was there before, and
runs no suspension: with any others in their place it goes the same way.

* `Store.Extends`: what was there is as it was, and the changes on record are additions;
* `Eval.Builds.respects`, `Eval.Builds.blind`: **a computation that builds extends the store, and is
  blind to its suspensions**, by induction on how it is put together;
* `apply_builds`, `readFrom_builds`, `load_builds`: applying, reading and defining build;
* `Session.building_forces_nothing`: **whatever is built in a session, nothing is forced**.
-/

import ByNeed.Proofs.Laziness
import ByNeed.Proofs.Respects
import ByNeed.Proofs.Steps

namespace ByNeed

variable {α β : Type} {store later : Store} {d x : CellId} {s : Suspension}

/-! ### Computations that build -/

/-- **A computation builds**: it adds cells, looks names up and binds them, and looks at cells, but
does the same whatever suspension it finds in one. -/
inductive Eval.Builds : {α : Type} → Eval α → Prop
  | pure {α : Type} (a : α) : Builds (Pure.pure a : Eval α)
  | throw {α : Type} (failure : Failure) : Builds (MonadExcept.throw failure : Eval α)
  | bind {α β : Type} {first : Eval α} {next : α → Eval β} : Builds first → (∀ a, Builds (next a)) →
      Builds (first >>= next)
  | outcome {α : Type} {computation : Eval α} : Builds computation → Builds computation.outcome
  | alloc (c : Cell) : Builds (Eval.alloc c)
  | look {α : Type} (x : CellId) {next : Cell → Eval α} : (∀ c, Builds (next c)) →
      (∀ s s', next (.suspended s) = next (.suspended s')) → Builds (Eval.cell x >>= next)
  | bindings (env : TableId) : Builds (Environment.bindings env)
  | bindName (env : TableId) (name : String) (x : CellId) :
      Builds (modify fun store => store.bindName env name x)

theorem Eval.Builds.foldlM {f : α → β → Eval α} (each : ∀ a b, (f a b).Builds) (items : List β)
    (a : α) : Eval.Builds (items.foldlM f a) := by
  induction items generalizing a with
  | nil => exact .pure a
  | cons item rest ih =>
    rw [List.foldlM_cons]
    exact (each a item).bind ih

/-! ### What is left as it was -/

/-- **A store extends another**: the cells that were there hold what they held, nothing was counted
and no label was left, and all changes on record since then are additions. -/
structure Store.Extends (store later : Store) : Prop where
  cells : ∀ x, store.Has x → later.Has x ∧ later.cell x = store.cell x
  forced : later.forced = store.forced
  trace : later.trace = store.trace
  added : ∃ made, later.changes = made ++ store.changes ∧ replacedCells made = []

instance : Std.Refl Store.Extends where
  refl _ := ⟨fun _ there => ⟨there, rfl⟩, rfl, rfl, [], rfl, rfl⟩

instance : Trans Store.Extends Store.Extends Store.Extends where
  trans first second := by
    obtain ⟨made, changes, none⟩ := first.added
    obtain ⟨made', changes', none'⟩ := second.added
    refine ⟨fun x there => ?_, second.forced.trans first.forced, second.trace.trans first.trace,
      made' ++ made, ?_, ?_⟩
    · obtain ⟨there', same⟩ := first.cells x there
      obtain ⟨there'', same'⟩ := second.cells x there'
      exact ⟨there'', same'.trans same⟩
    · rw [changes', changes, List.append_assoc]
    · rw [replacedCells_append, none, none', List.append_nil]

theorem Store.extends_alloc (store : Store) (c : Cell) : store.Extends (store.alloc c).2 :=
  ⟨fun _ there => ⟨(has_alloc_iff store c).mpr (Or.inl there), cell_alloc_of_has there c⟩, rfl, rfl,
    [.added (store.alloc c).1 c], rfl, rfl⟩

theorem Store.extends_bindName (store : Store) (env : TableId) (name : String) (x : CellId) :
    store.Extends (store.bindName env name x) :=
  ⟨fun _ there => ⟨there, rfl⟩, rfl, rfl, [], rfl, rfl⟩

/-- **A computation that builds extends the store**, wherever it starts and however it ends. -/
theorem Eval.Builds.respects {computation : Eval α} (builds : computation.Builds) :
    Respects Store.Extends computation := by
  induction builds with
  | pure a => exact .pure a
  | throw failure => exact .throw failure
  | bind _ _ ih ihNext => exact ih.bind ihNext
  | outcome _ ih => exact outcome_respects ih
  | alloc c => exact .change fun store => store.extends_alloc c
  | look x _ _ ih => exact (cell_respects x).bind ih
  | bindings env => exact Respects.get.bind fun _ => .pure _
  | bindName env name x => exact .change fun store => store.extends_bindName env name x

/-! ### What is not seen -/

/-- The result with another state at its end. -/
def mapState {ε σ : Type} (f : σ → σ) : EStateM.Result ε σ α → EStateM.Result ε σ α
  | .ok a later => .ok a (f later)
  | .error failure later => .error failure (f later)

theorem Store.Extends.suspended (kept : store.Extends later)
    (suspended : store.cell d = .suspended s) : later.cell d = .suspended s := by
  rw [(kept.cells d (has_of_suspended suspended)).2, suspended]

/-- **A computation that builds is blind to suspensions**: with another one in a cell it ends in the
same way, and leaves the same store but for that one. -/
theorem Eval.Builds.blind {computation : Eval α} (builds : computation.Builds)
    (suspended : store.cell d = .suspended s) (s' : Suspension) :
    computation (store.suspendAt d s') = mapState (·.suspendAt d s') (computation store) := by
  induction builds generalizing store with
  | pure a => rfl
  | throw failure => rfl
  | @bind _ _ first next builds _ ih ihNext =>
    have same := ih suspended
    cases ended : first store with
    | ok a later =>
      -- The cell is still suspended after the first part, which is what the rest needs.
      have still := ((builds.respects store).ok a later ended).1.suspended suspended
      rw [ended] at same
      rw [bind_of_ok same, bind_of_ok ended, ihNext a still]
    | error failure later =>
      rw [ended] at same
      rw [bind_of_error same, bind_of_error ended]
      rfl
  | @outcome _ computation _ ih =>
    have same := ih suspended
    cases ended : computation store with
    | ok a later =>
      rw [ended] at same
      rw [outcome_of_ok same, outcome_of_ok ended]
      rfl
    | error failure later =>
      rw [ended] at same
      rw [outcome_of_error same, outcome_of_error ended]
      rfl
  | alloc c =>
    have allocates : ∀ store : Store,
        Eval.alloc c store = .ok (store.alloc c).1 (store.alloc c).2 := fun _ => rfl
    rw [allocates, allocates, Store.alloc_suspendAt (Store.has_of_suspended suspended)]
    rfl
  | @look _ x next _ alike ih =>
    show next ((store.suspendAt d s').cell x) (store.suspendAt d s') =
      mapState _ (next (store.cell x) store)
    rw [Store.cell_suspendAt (Store.has_of_suspended suspended)]
    by_cases own : x = d
    · rw [if_pos own, own, suspended, alike s' s]
      exact ih _ suspended
    · rw [if_neg own]
      exact ih _ suspended
  | bindings env => rfl
  | bindName env name x => rfl

/-! ### Applying -/

theorem half_builds (side : Half) (v : Value) : (v.half side).Builds := by
  unfold Value.half
  split
  · exact .pure _
  · exact .pure _
  · exact .throw _

theorem takeHalf_builds (side : Half) (x : CellId) : (takeHalf side x).Builds := by
  refine .look x (fun c => ?_) fun _ _ => rfl
  cases c with
  | value v => exact half_builds side v
  | suspended s => exact .alloc _

theorem faultShowing_builds (reason : Int → Fault) (n : Int) :
    (Eval.faultShowing reason n : Eval α).Builds := by
  unfold Eval.faultShowing
  split
  · exact .throw _
  · exact .throw _

theorem applyWith_builds {apply : CellId → CellId → Eval CellId}
    (applies : ∀ f x, (apply f x).Builds) (v : Value) (x : CellId) :
    (v.applyWith apply x).Builds := by
  rw [applyWith_eq_run]
  cases v.effect x with
  | answer y => exact .pure y
  | add c => exact .alloc c
  | take side y => exact takeHalf_builds side y
  | apply f y => exact applies f y
  | applyTwice f y z => exact (applies f y).bind fun g => applies g z
  | applyNested f g y => exact (applies g y).bind fun z => applies f z
  | refuse n => exact faultShowing_builds _ n

theorem applyCellWith_builds {applyValue : Value → CellId → Eval CellId}
    (applies : ∀ v x, (applyValue v x).Builds) (f x : CellId) :
    (applyCellWith applyValue f x).Builds := by
  refine .look f (fun c => ?_) fun _ _ => rfl
  cases c with
  | value v => exact applies v x
  | suspended s => exact .alloc _

/-- **Applying a cell builds**, whatever further applications that leads to. -/
theorem apply_builds (depth : Nat) (f x : CellId) : (apply depth f x).Builds := by
  induction depth generalizing f x with
  | zero => exact applyCellWith_builds (fun _ _ => .throw _) f x
  | succ depth ih => exact applyCellWith_builds (applyWith_builds ih) f x

theorem applyAll_builds (depth : Nat) (f : CellId) (args : List CellId) :
    (applyAll depth f args).Builds :=
  .foldlM (apply_builds depth) args f

theorem interact_builds (depth : Nat) (program state : CellId) (m n : Int) :
    (Interpreter.interact depth program state m n).Builds := by
  have point : (Interpreter.point m n).Builds :=
    (Eval.Builds.alloc _).bind fun _ => (Eval.Builds.alloc _).bind fun _ => .alloc _
  exact point.bind fun argument => applyAll_builds depth program [state, argument]

/-! ### Reading and defining -/

theorem ofExcept_builds (result : Except Failure α) : (Eval.ofExcept result).Builds := by
  cases result with
  | ok a => exact .pure a
  | error failure => exact .throw failure

theorem lookup_builds (env : TableId) (name : String) : (Environment.lookup env name).Builds :=
  (Eval.Builds.bindings env).bind fun _ => .pure _

theorem reference_builds (env : TableId) (name : String) :
    (Environment.reference env name).Builds := by
  refine (lookup_builds env name).bind fun found => ?_
  cases found with
  | some x => exact .pure x
  | none => exact .alloc _

theorem settle_builds (depth : Nat) (pending : Reader.Pending) (x : CellId) :
    (Reader.settle depth pending x).Builds := by
  induction pending generalizing x with
  | nil => exact .pure _
  | cons frame pending ih =>
    cases frame with
    | none => exact .pure _
    | some f => exact (apply_builds depth f x).bind ih

theorem step_builds (depth : Nat) (env : TableId) (pending : Reader.Pending) (token : Token) :
    (Reader.step depth env pending token).Builds := by
  cases token with
  | ap => exact .pure _
  | number numeral =>
    refine (ofExcept_builds _).bind fun n => ?_
    exact (Eval.Builds.alloc _).bind (settle_builds depth pending)
  | symbol name => exact (reference_builds env name).bind (settle_builds depth pending)

/-- **Reading from a stream builds**, whether an expression is found or not. -/
theorem readFrom_builds (depth : Nat) (env : TableId) (pending : Reader.Pending)
    (stream : TokenStream) : (Reader.readFrom depth env pending stream).Builds := by
  fun_induction Reader.readFrom depth env pending stream with
  | case1 pending stream later taken => exact .pure _
  | case2 pending stream token later taken ih =>
    refine (step_builds depth env pending token).outcome.bind fun result => ?_
    rcases result with failure | progress
    · exact .pure _
    · cases progress with
      | complete x => exact .pure _
      | waiting pending => exact ih pending

theorem parse_builds (depth : Nat) (env : TableId) (code : String) :
    (Reader.parse depth env code).Builds := by
  rw [Reader.parse_eq_readFrom]
  refine (readFrom_builds depth env [] (.ofText code)).bind fun read => ?_
  exact (ofExcept_builds _).bind fun x => (ofExcept_builds _).bind fun _ => .pure x

theorem define_builds (env : TableId) (name : String) (x : CellId) :
    (Environment.define env name x).Builds := by
  refine (lookup_builds env name).bind fun found => ?_
  cases found with
  | some x => exact .throw _
  | none => exact .bindName env name x

theorem defineLine_builds (depth : Nat) (env : TableId) (number : Nat) (line : List Char) :
    (Definitions.defineLine depth env number line).Builds := by
  unfold Definitions.defineLine
  cases Definitions.Line.ofChars number line with
  | error reason => exact .throw _
  | ok content =>
    cases content with
    | blank => exact .pure 0
    | definition name body =>
      refine (parse_builds depth env _).bind fun x => ?_
      exact (define_builds env _ x).bind fun _ => .pure 1

/-- **A batch of definitions builds**, also one that fails in the middle. -/
theorem load_builds (depth : Nat) (env : TableId) (code : String) :
    (Definitions.load depth env code).Builds := by
  have lines : ∀ lines number count,
      (Definitions.defineLines depth env number count lines).Builds := by
    intro lines
    induction lines with
    | nil => exact fun _ count => .pure count
    | cons line rest ih =>
      exact fun number count => (defineLine_builds depth env number line).bind fun _ => ih _ _
  exact lines _ 1 0

/-! ### Building in a session -/

/-- What can be built, with the type of the answer. -/
inductive Building : Type → Type
  | apply (f x : CellId) : Building CellId
  | applyAll (f : CellId) (args : List CellId) : Building CellId
  | half (side : Half) (x : CellId) : Building CellId
  | interact (program state : CellId) (m n : Int) : Building CellId
  /-- Read an expression from a stream; the stream that is left is part of the answer. -/
  | readFrom (env : TableId) (stream : TokenStream) :
      Building (Except Failure CellId × TokenStream)
  | parse (env : TableId) (code : String) : Building CellId
  | load (env : TableId) (code : String) : Building Nat
  | define (env : TableId) (name : String) (x : CellId) : Building Unit
  | lookup (env : TableId) (name : String) : Building (Option CellId)

namespace Building

/-- Build it. -/
def run (depth : Nat) : Building α → Eval α
  | .apply f x => ByNeed.apply depth f x
  | .applyAll f args => ByNeed.applyAll depth f args
  | .half side x => takeHalf side x
  | .interact program state m n => Interpreter.interact depth program state m n
  | .readFrom env stream => Reader.readFrom depth env [] stream
  | .parse env code => Reader.parse depth env code
  | .load env code => Definitions.load depth env code
  | .define env name x => Environment.define env name x
  | .lookup env name => Environment.lookup env name

theorem builds (building : Building α) (depth : Nat) : (building.run depth).Builds := by
  cases building with
  | apply f x => exact apply_builds depth f x
  | applyAll f args => exact applyAll_builds depth f args
  | half side x => exact takeHalf_builds side x
  | interact program state m n => exact interact_builds depth program state m n
  | readFrom env stream => exact readFrom_builds depth env [] stream
  | parse env code => exact parse_builds depth env code
  | load env code => exact load_builds depth env code
  | define env name x => exact define_builds env name x
  | lookup env name => exact lookup_builds env name

end Building

namespace Session

variable {session : Session}

/-- The session with another suspension in a cell. -/
def suspendAt (session : Session) (d : CellId) (s : Suspension) : Session :=
  { session with store := session.store.suspendAt d s }

theorem after_onStore (computation : Eval α) (session : Session) :
    after (onStore computation) session =
      { session with store := computation.after session.store } := by
  unfold after Eval.after
  cases ended : computation session.store with
  | ok a later => rw [onStore_of_ok ended]
  | error failure later => rw [onStore_of_error ended]

theorem onStore_blind {computation : Eval α} (builds : computation.Builds)
    (suspended : session.store.cell d = .suspended s) (s' : Suspension) :
    onStore computation (session.suspendAt d s') =
      mapState (·.suspendAt d s') (onStore computation session) := by
  have same := builds.blind suspended s'
  cases ended : computation session.store with
  | ok a later =>
    rw [ended] at same
    rw [onStore_of_ok ended]
    exact onStore_of_ok same
  | error failure later =>
    rw [ended] at same
    rw [onStore_of_error ended]
    exact onStore_of_error same

/-- **Whatever is built in a session, nothing is forced**, whether it is built or fails. Every cell
that was there holds what it held, and the counts of the evaluators are as they were; no label is
left, and the changes on record are additions. And no suspension is run: with any other one in a
cell, the same comes of it. -/
theorem building_forces_nothing (building : Building α) (depth : Nat) (session : Session) :
    session.store.Extends (after (onStore (building.run depth)) session).store ∧
      (after (onStore (building.run depth)) session).evaluators = session.evaluators ∧
      ∀ d s s', session.store.cell d = .suspended s →
        onStore (building.run depth) (session.suspendAt d s') =
          mapState (·.suspendAt d s') (onStore (building.run depth) session) := by
  have builds := building.builds depth
  rw [after_onStore]
  exact ⟨(builds.respects session.store).after, rfl,
    fun d s s' suspended => onStore_blind builds suspended s'⟩

/-- Reading comes to a number that is applied, after a composition was reduced on the way. The name
in it stays suspended, and could as well stand for its own first half, which never ends. -/
theorem building_forces_nothing_failing :
    let session := reached [(20, Step.ofCommand (.environment (.load "xs = ap inc 4")))]
    let code := "ap ap ap b 5 i xs"
    let work := onStore (Reader.parse 20 ⟨0⟩ code)
    let loop := Suspension.half .head ⟨20⟩
    (Reader.parse 20 ⟨0⟩ code).verdict session.store = .error (.fault (.appliedNumber 5)) ∧
      session.store.cell ⟨20⟩ = .suspended (.monop .inc ⟨19⟩) ∧
      session.store.Extends (after work session).store ∧
      (after work session).evaluators = session.evaluators ∧
      work (session.suspendAt ⟨20⟩ loop) = mapState (·.suspendAt ⟨20⟩ loop) (work session) := by
  intro session code work loop
  obtain ⟨fails, suspended⟩ :
      (Reader.parse 20 ⟨0⟩ code).verdict session.store = .error (.fault (.appliedNumber 5)) ∧
        session.store.cell ⟨20⟩ = .suspended (.monop .inc ⟨19⟩) := by decide +kernel
  obtain ⟨kept, counts, blind⟩ := building_forces_nothing (.parse ⟨0⟩ code) 20 session
  exact ⟨fails, suspended, kept, counts, blind ⟨20⟩ _ loop suspended⟩

end Session

end ByNeed
