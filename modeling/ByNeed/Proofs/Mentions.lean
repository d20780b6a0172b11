/-
**Mentions of names that are defined.**

A mention of a name that is bound is the cell that the name is bound to. A mention of one that is not
is a reference, which looks the name up when it is forced. Whatever steps a session takes in between,
once the name is defined a reference forces to the value of its cell.

A line can define every word, but not every word is read as a name: `ap` and integers are not. These
two apart, a name that a line has defined can be mentioned.

* `Text.word_of_mem`, `Carried.word`: what a line defines is a word;
* `parse_name`: reading a text that is a name answers what its mention is;
* `Traced`, `force_traced`: **while a step forces cells, a reference is given the value of the cell
  that its name is bound to**;
* `workOnEnvironment_unforced`: defining names forces nothing;
* `Linked`, `continued_linked`: so a reference is suspended or holds that value after all steps;
* `Session.defined_name_refers`: **a name that a line has defined can be mentioned**;
* `Session.unreadable_names`: `ap` and integers cannot.
-/

import ByNeed.Proofs.Bindings.WriteOnce
import ByNeed.Proofs.FailedForcing
import ByNeed.Proofs.ForcedData
import ByNeed.Proofs.Grammar
import ByNeed.Proofs.Lexing
import ByNeed.Proofs.SingleForcing

namespace ByNeed

/-! ### Names -/

namespace Text

variable {separates : Char → Bool} {text word : List Char}

/-- A run between separating characters has none in it. -/
theorem unbroken_of_mem_pieces (member : word ∈ pieces separates text) :
    ∀ c ∈ word, separates c = false := by
  induction text generalizing word with
  | nil =>
    rw [pieces_nil, List.mem_singleton] at member
    rw [member]
    exact fun _ none => nomatch none
  | cons c rest ih =>
    cases ends : separates c with
    | true =>
      rw [pieces_cons_of_pos ends, List.mem_cons] at member
      rcases member with rfl | member
      · exact fun _ none => nomatch none
      · exact ih member
    | false =>
      rw [pieces_cons_of_neg ends] at member
      cases runs : pieces separates rest with
      | nil =>
        rw [runs, joinFirst, List.mem_singleton] at member
        rw [member]
        exact List.forall_mem_cons.mpr ⟨ends, fun _ none => nomatch none⟩
      | cons run later =>
        rw [runs] at ih
        rw [runs, joinFirst, List.mem_cons] at member
        rcases member with rfl | member
        · exact List.forall_mem_cons.mpr ⟨ends, ih List.mem_cons_self⟩
        · exact ih (List.mem_cons_of_mem _ member)

/-- A word of a text is not empty, and has no blanks in it. -/
theorem word_of_mem (member : word ∈ words text) : word ≠ [] ∧ ∀ c ∈ word, isBlank c = false := by
  obtain ⟨run, full⟩ := List.mem_filter.mp member
  exact ⟨by simpa using full, unbroken_of_mem_pieces run⟩

end Text

variable {store later : Store} {env : TableId} {name : String} {x r c : CellId} {v : Value}
  {depth number : Nat} {added : Table}

/-- **What a line defines is a word.** -/
theorem word_of_ofChars {line word body : List Char}
    (read : Definitions.Line.ofChars number line = .ok (.definition word body)) :
    word ≠ [] ∧ ∀ c ∈ word, Text.isBlank c = false := by
  unfold Definitions.Line.ofChars at read
  split at read
  · cases read
  · split at read
    · next left _ _ =>
      split at read
      · next only =>
        cases read
        exact Text.word_of_mem (only ▸ List.mem_singleton_self word)
      · cases read
    · cases read

/-- What lines have defined are words. -/
theorem Carried.word {lines : List (List Char)}
    (carried : Carried depth env number lines store added later) :
    ∀ binding ∈ added, binding.1.toList ≠ [] ∧ ∀ c ∈ binding.1.toList, Text.isBlank c = false := by
  induction carried with
  | nil => exact fun _ none => nomatch none
  | blank _ _ ih => exact ih
  | definition read _ _ _ ih =>
    refine List.forall_mem_cons.mpr ⟨?_, ih⟩
    rw [String.toList_ofList]
    exact word_of_ofChars read

/-- A word is read as a name unless it is `ap` or an integer. -/
theorem legible_of_word (word : name.toList ≠ [] ∧ ∀ c ∈ name.toList, Text.isBlank c = false)
    (ne_ap : name.toList ≠ Token.apWord) (not_numeral : Numeral.ofChars? name.toList = none) :
    (Token.symbol name).Legible where
  nonempty := word.1
  unbroken := word.2
  reads := by
    show Token.ofWord name.toList = _
    rw [Token.ofWord, if_neg ne_ap, not_numeral, String.ofList_toList]

/-- **Reading a text that is a name** answers what a mention of the name is. -/
theorem parse_name (legible : (Token.symbol name).Legible) (depth : Nat) (env : TableId) :
    Reader.parse depth env name = Environment.reference env name := by
  have spelled : unlex [.symbol name] = name := by
    rw [unlex, List.map_singleton, List.intercalate_singleton]
    exact String.ofList_toList
  have listed : lex name = (Phrase.whole (.symbol name)).tokens := by
    rw [← spelled, lex_unlex (fun token member => List.mem_singleton.mp member ▸ legible), spelled]
    rfl
  exact Reader.parse_eq_build listed depth env

/-! ### References while cells are forced -/

/-- What a name is bound to is there. -/
theorem Store.Represented.bound_has (represented : store.Represented)
    (bound : (store.table env).lookup name = some c) : store.Has c := by
  obtain ⟨defs, terms, represents⟩ := represented
  exact (represents.bound env name c bound).1

/-- A cell that is given a value has the value, and the others are as they were. -/
theorem Store.cell_commit_cases (store : Store) (x : CellId) (v : Value) (y : CellId) :
    (store.commit x v).cell y = store.cell y ∨
      y = x ∧ (store.commit x v).cell y = .value v := by
  by_cases there : store.Has x
  · rw [Store.cell_commit there]
    by_cases same : y = x
    · exact Or.inr ⟨same, if_pos same⟩
    · exact Or.inl (if_neg same)
  · have outside : store.cells.size ≤ x.index := Nat.not_lt.mp there
    left
    simp [Store.cell, Store.commit, Array.setIfInBounds_def, Nat.not_lt.mpr outside]

/-- **A name offers a value**: the cell that it is bound to has the value, or was given it by the
changes since. -/
def Offers (origin : Store) (env : TableId) (name : String) (changes : List Change) (v : Value) :
    Prop :=
  ∃ c, (origin.table env).lookup name = some c ∧
    (origin.cell c = .value v ∨ .replaced c v ∈ changes)

theorem Offers.more {origin : Store} {changes : List Change}
    (offers : Offers origin env name changes v) (change : Change) :
    Offers origin env name (change :: changes) v := by
  obtain ⟨c, bound, known⟩ := offers
  exact ⟨c, bound, known.imp_right (List.mem_cons_of_mem _)⟩

/-- **A reference is traced** from a store on, as long as no names are bound: it is suspended or holds
a value, and a value that it was given is one that its name offered. -/
structure Traced (origin : Store) (env : TableId) (name : String) (r : CellId) (store : Store) :
    Prop where
  tables : store.tables = origin.tables
  size : origin.cells.size ≤ store.cells.size
  reference : store.cell r = .suspended (.lookup env name) ∨ ∃ v, store.cell r = .value v
  recorded : ∀ x v, origin.Has x → store.cell x = .value v →
    origin.cell x = .value v ∨ .replaced x v ∈ store.changes
  offered : ∀ v, .replaced r v ∈ store.changes → Offers origin env name store.changes v

section Traced

variable {origin : Store}

theorem Traced.has (traced : Traced origin env name r store) (there : origin.Has x) :
    store.Has x :=
  Nat.lt_of_lt_of_le there traced.size

/-- Adding cells and leaving labels do not matter. -/
theorem traced_allows (there : origin.Has r) : Allows (Store.Keeps (Traced origin env name r)) := by
  refine ⟨fun store cell traced => ?_, fun store label traced => ?_⟩
  · refine ⟨traced.tables, ?_, ?_, fun x v inside holds => ?_, fun v replaced => ?_⟩
    · exact Nat.le_trans traced.size (by simp [Store.alloc])
    · rw [Store.cell_alloc_of_has (traced.has there)]
      exact traced.reference
    · rw [Store.cell_alloc_of_has (traced.has inside)] at holds
      exact (traced.recorded x v inside holds).imp_right (List.mem_cons_of_mem _)
    · have before : .replaced r v ∈ store.changes := by simpa [Store.alloc] using replaced
      exact (traced.offered v before).more _
  · exact ⟨traced.tables, traced.size, traced.reference, traced.recorded, traced.offered⟩

/-- A cell is given its value, which the name must offer if the cell is the reference. -/
theorem Traced.commit (traced : Traced origin env name r store)
    (offers : x = r → Offers origin env name store.changes v) :
    Traced origin env name r (store.commit x v) := by
  refine ⟨traced.tables, ?_, ?_, fun y w inside holds => ?_, fun w replaced => ?_⟩
  · exact Nat.le_trans traced.size (by simp [Store.commit])
  · rcases store.cell_commit_cases x v r with same | ⟨-, given⟩
    · rw [same]
      exact traced.reference
    · exact Or.inr ⟨v, given⟩
  · rcases store.cell_commit_cases x v y with same | ⟨rfl, given⟩
    · rw [same] at holds
      exact (traced.recorded y w inside holds).imp_right (List.mem_cons_of_mem _)
    · rw [given] at holds
      cases holds
      exact Or.inr List.mem_cons_self
  · rcases List.mem_cons.mp replaced with here | before
    · cases here
      exact (offers rfl).more _
    · exact (traced.offered w before).more _

/-- **Forcing traces references**: when one is run, the cell of its name has been forced and holds the
value that the reference is given. -/
theorem force_traced (there : origin.Has r)
    (inside : ∀ c, (origin.table env).lookup name = some c → origin.Has c) (depth : Nat) (x : CellId) :
    Respects (Store.Keeps (Traced origin env name r)) (force depth x) := by
  refine force_respects (traced_allows there) ?_ depth x
  intro depth x s v store later content ended kept traced
  have traced' := kept traced
  refine traced'.commit ?_
  rintro rfl
  -- The reference itself has been run, so its name is bound and its cell holds the value.
  obtain rfl : s = .lookup env name := by
    rcases traced.reference with still | ⟨w, holds⟩
    · rw [content] at still
      cases still
      rfl
    · rw [content] at holds
      cases holds
  rw [run_lookup, Store.table_congr traced.tables] at ended
  cases bound : (origin.table env).lookup name with
  | none =>
    rw [bound] at ended
    cases ended
  | some c =>
    rw [bound] at ended
    have stored := cell_of_force ended (traced'.has (inside c bound))
    exact ⟨c, bound, traced'.recorded c v (inside c bound) stored⟩

end Traced

/-! ### Defining forces nothing -/

/-- No suspension is on record as replaced. -/
def Unforced (store : Store) : Prop :=
  replacedCells store.changes = []

theorem unforced_allows : Allows (Store.Keeps Unforced) :=
  ⟨fun _ _ here => here, fun _ _ here => here⟩

theorem define_unforced (env : TableId) (name : String) (x : CellId) :
    Respects (Store.Keeps Unforced) (Environment.define env name x) := by
  have bindings : Respects (Store.Keeps Unforced) (Environment.bindings env) :=
    Respects.get.bind fun _ => .pure _
  refine (bindings.bind fun _ => .pure _).bind fun found => ?_
  cases found with
  | some y => exact fault_respects _
  | none => exact .change fun _ here => here

theorem load_unforced (depth : Nat) (env : TableId) (code : String) :
    Respects (Store.Keeps Unforced) (Definitions.load depth env code) := by
  suffices lines : ∀ (lines : List (List Char)) (number count : Nat),
      Respects (Store.Keeps Unforced) (Definitions.defineLines depth env number count lines) from
    lines _ 1 0
  intro lines
  induction lines with
  | nil => exact fun _ _ => .pure _
  | cons line rest ih =>
    intro number count
    refine Respects.bind ?_ fun _ => ih _ _
    unfold Definitions.defineLine
    split
    · exact fault_respects _
    · exact .pure _
    · exact (parse_respects unforced_allows depth env _).bind fun _ =>
        (define_unforced env _ _).bind fun _ => .pure _

theorem create_unforced : Respects (Store.Keeps Unforced) Environment.create :=
  .change fun _ here => here

theorem createBuiltins_unforced : Respects (Store.Keeps Unforced) Builtins.create := by
  refine create_unforced.bind fun env => (Respects.forM (fun item => ?_) _).bind fun _ => .pure _
  exact (value_respects unforced_allows item.2).bind fun x => define_unforced env item.1 x

namespace Session

variable {session : Session} {step : Step}

/-- The store of a session moves as a relation says. -/
def Within (R : Store → Store → Prop) (session later : Session) : Prop :=
  R session.store later.store

instance {R : Store → Store → Prop} [Std.Refl R] : Std.Refl (Within R) where
  refl session := Std.Refl.refl session.store

instance {R : Store → Store → Prop} [Trans R R R] : Trans (Within R) (Within R) (Within R) where
  trans first second := Trans.trans (r := R) (s := R) first second

/-- **Work on environments forces nothing.** -/
theorem workOnEnvironment_unforced (depth : Nat) (env : TableId) (command : EnvironmentCommand) :
    Respects (Within (Store.Keeps Unforced)) (workOnEnvironment depth env command) := by
  have stored : ∀ {α : Type} {computation : Eval α}, Respects (Store.Keeps Unforced) computation →
      Respects (Within (Store.Keeps Unforced)) (onStore computation) := fun respects =>
    (onStore_respects respects).imp fun _ _ beside => beside.store
  have aside : ∀ {α : Type} {change : Session → α × Session},
      (∀ session, (change session).2.store = session.store) →
      Respects (Within (Store.Keeps Unforced)) (modifyGet change : Work α) := fun same =>
    .change fun session here => (same session).symm ▸ here
  have plain : (Command.environment command).defines = false →
      (Command.environment command).named? = none →
      Respects (Within (Store.Keeps Unforced)) (workOnEnvironment depth env command) :=
    fun defines named =>
      (workOnEnvironment_respects depth env defines named).imp fun _ _ beside => beside.store
  cases command with
  | create target builtins =>
    refine Respects.bind ?_ fun table => (aside fun _ => rfl).bind fun _ => .pure _
    cases builtins with
    | true =>
      exact (stored createBuiltins_unforced).bind fun _ => (aside fun _ => rfl).bind fun _ => .pure _
    | false =>
      have created := stored create_unforced
      exact created
  | clone target => exact (aside fun _ => rfl).bind fun _ => .pure _
  | load code =>
    exact ((stored (load_unforced depth env code)).bind fun _ => (aside fun _ => rfl).bind fun _ =>
      .pure _).bind fun _ => .pure _
  | define name register =>
    exact (register_respects register).bind fun x => (stored (define_unforced env name x)).bind
      fun _ => .pure _
  | defineAll items =>
    refine Respects.bind (Respects.mapM (fun item => ?_) items) fun found => ?_
    · exact (register_respects item.2).bind fun _ => .pure _
    · exact (stored (Respects.forM (fun item => define_unforced env _ _) found)).bind fun _ => .pure _
  | _ => exact plain rfl rfl

/-! ### References after steps -/

/-- A value that a step gives to a reference is one that its name offers. -/
theorem perform_offered (depth : Nat) (step : Step) (sound : session.Sound)
    (suspended : session.store.cell r = .suspended (.lookup env name))
    (replaced : .replaced r v ∈ (after (perform depth step) session).store.changes) :
    Offers session.cleared.store env name (after (perform depth step) session).store.changes v := by
  have there : session.cleared.store.Has r := Store.has_of_suspended suspended
  have inside : ∀ c, (session.cleared.store.table env).lookup name = some c →
      session.cleared.store.Has c := fun c => sound.cleared.represented.bound_has
  have other (defines : step.command.defines = false) (named : step.command.named? = none) :
      Offers session.cleared.store env name (after (perform depth step) session).store.changes v := by
    have start : Traced session.cleared.store env name r session.cleared.store :=
      ⟨rfl, Nat.le_refl _, Or.inl suspended, fun _ _ _ holds => Or.inl holds,
        fun _ none => nomatch none⟩
    have recounts (store : Store) (count : Nat) : Store.Keeps (Traced session.cleared.store env name r)
        store { store with forced := count } := fun traced =>
      ⟨traced.tables, traced.size, traced.reference, traced.recorded, traced.offered⟩
    have moved := perform_respects depth step (fun table => executeWith_respects recounts
      (traced_allows there) (force_traced there inside) depth table step.evaluator defines named) session
    exact (moved.store start).offered v replaced
  cases kind : step.command with
  | environment command =>
    have moved : Within (Store.Keeps Unforced) session.cleared (after (perform depth step) session) := by
      refine perform_respects depth step (fun table => ?_) session
      rw [kind]
      exact workOnEnvironment_unforced depth table command
    have unforced : replacedCells (after (perform depth step) session).store.changes = [] := moved rfl
    have listed := mem_replacedCells.mpr ⟨v, replaced⟩
    rw [unforced] at listed
    cases listed
  | _ => exact other (by rw [kind]; rfl) (by rw [kind]; rfl)

/-- **A reference to a name is linked to the cell of the name**: it is suspended, or it holds the value
that the cell holds. -/
def Linked (env : TableId) (name : String) (r : CellId) (store : Store) : Prop :=
  store.cell r = .suspended (.lookup env name) ∨
    ∃ c v, (store.table env).lookup name = some c ∧ store.Has c ∧ store.Has r ∧
      store.cell r = .value v ∧ store.cell c = .value v

/-- A name that is bound stays bound to its cell. -/
theorem lookup_of_isPrefix {earlier later : Table} (extended : earlier <+: later)
    (bound : earlier.lookup name = some c) : later.lookup name = some c := by
  obtain ⟨more, rfl⟩ := extended
  rw [List.lookup_append, bound]
  rfl

/-- **Every step leaves references linked.** -/
theorem perform_linked (depth : Nat) (step : Step) (sound : session.Sound) (housed : session.Housed)
    (linked : Linked env name r session.store) :
    Linked env name r (after (perform depth step) session).store := by
  have advances := perform_advances depth step sound
  have forces := advances.forcesOnce
  have extended := (perform_logs depth step housed).1 env
  rcases linked with suspended | ⟨c, v, bound, there, there', holds, holds'⟩
  · rcases advances.evolves.suspended suspended with still | ⟨v, holds⟩
    · exact Or.inl still
    · have listed := (forces.exactly r).mpr ⟨Or.inl ⟨_, suspended⟩, v, holds⟩
      obtain ⟨w, replaced⟩ := mem_replacedCells.mp listed
      obtain ⟨c, bound, known⟩ := perform_offered depth step sound suspended replaced
      have inside := sound.represented.bound_has bound
      have valued := forces.keeps r w (Or.inr (Or.inr replaced))
      have valued' := forces.keeps c w (known.imp (fun held => ⟨inside, held⟩) Or.inr)
      exact Or.inr ⟨c, w, lookup_of_isPrefix extended bound, advances.has inside,
        advances.has (Store.has_of_suspended suspended), valued, valued'⟩
  · exact Or.inr ⟨c, v, lookup_of_isPrefix extended bound, advances.has there, advances.has there',
      advances.evolves.value there' holds, advances.evolves.value there holds'⟩

/-- **Steps leave references linked.** -/
theorem continued_linked (more : List (Nat × Step)) (sound : session.Sound) (housed : session.Housed)
    (linked : Linked env name r session.store) :
    Linked env name r (session.continued more).store := by
  induction more generalizing session with
  | nil => exact linked
  | cons next rest ih =>
    obtain ⟨depth, step⟩ := next
    exact ih (perform_advances depth step sound).sound (perform_logs depth step housed).2
      (perform_linked depth step sound housed linked)

/-- **A linked reference forces to the value of the cell of its name**, one level deeper, and then both
hold it. -/
theorem linked_forces (linked : Linked env name r store) (represented : store.Represented)
    (bound : (store.table env).lookup name = some c) (depth : Nat) :
    (force (depth + 1) r).verdict store = (force depth c).verdict store ∧
      ∀ v later, force (depth + 1) r store = .ok v later →
        later.cell r = .value v ∧ later.cell c = .value v := by
  unfold Eval.verdict
  rcases linked with suspended | ⟨c', v, bound', -, -, holds, holds'⟩
  · have run : force (depth + 1) r store = (do
        let v ← force depth c
        Eval.commit r v
        pure v : Eval Value) store := by
      rw [force_of_suspended suspended]
      show ((Suspension.lookup env name).run (force depth) (apply depth) >>= _) store = _
      simp only [EStateM.bind, bind, run_lookup, bound]
    cases ended : force depth c store with
    | error failure last =>
      rw [run, bind_of_error ended]
      exact ⟨rfl, fun _ _ answered => nomatch answered⟩
    | ok v last =>
      have answered : force (depth + 1) r store = .ok v (last.commit r v) :=
        run.trans (bind_of_ok ended)
      rw [answered]
      refine ⟨rfl, fun w later same => ?_⟩
      cases same
      have stored := force_stores represented (represented.bound_has bound) ended
      refine ⟨force_stores represented (Store.has_of_suspended suspended) answered, ?_⟩
      rcases last.cell_commit_cases r v c with kept | ⟨-, given⟩
      · rw [kept, stored]
      · exact given
  · obtain rfl : c' = c := Option.some.inj (bound'.symm.trans bound)
    rw [force_of_value holds, force_of_value holds']
    refine ⟨rfl, fun w later same => ?_⟩
    cases same
    exact ⟨holds, holds'⟩

/-- A name that a batch of definitions binds is a word. -/
theorem word_of_loaded {code : String} (housed : session.Housed)
    (loads : step.command = .environment (.load code))
    (found : session.environments.lookup step.env = some env)
    (unbound : (session.store.table env).lookup name = none)
    (bound : ((after (perform depth step) session).store.table env).lookup name = some c) :
    name.toList ≠ [] ∧ ∀ c ∈ name.toList, Text.isBlank c = false := by
  obtain ⟨answer, performed, -⟩ := perform_result depth step session
  have logged : Logged depth env session.cleared step.command
    (result (execute depth step) session.cleared) := execute_logged housed.cleared found
  obtain ⟨added, adds, logs, -⟩ := logged
  have unbound' : (session.cleared.store.table env).lookup name = none := unbound
  rw [after_of_ok performed, logs.table, List.lookup_append, unbound', Option.none_or] at bound
  have member := mem_of_lookup bound
  rw [loads] at adds
  generalize (result (execute depth step) session.cleared).1 = outcome at adds
  cases adds with
  | loaded carried _ => exact carried.word _ member
  | stopped _ carried _ _ => exact carried.word _ member
  | unset => cases member
  | other defines => cases defines

/-- **A name that a line has defined can be mentioned**, if it is read as a name. After any further
steps, reading it answers the very cell that it is bound to; before the definition, reading it answers
a reference. And every reference to it, from whenever it is, forces to the value of that cell, one
level deeper. -/
theorem defined_name_refers (history more : List (Nat × Step)) (depth : Nat) {definition : Step}
    {code : String} (loads : definition.command = .environment (.load code))
    (found : (reached history).environments.lookup definition.env = some env)
    (unbound : ((reached history).store.table env).lookup name = none)
    (bound : ((reached (history ++ [(depth, definition)])).store.table env).lookup name = some c)
    (ne_ap : name.toList ≠ Token.apWord) (not_numeral : Numeral.ofChars? name.toList = none) :
    let later := (reached (history ++ (depth, definition) :: more)).store
    (∀ n, Reader.parse n env name later = .ok c later) ∧
      (∀ n, ∃ r read, Reader.parse n env name (reached history).store = .ok r read ∧
        read.cell r = .suspended (.lookup env name)) ∧
      ∀ past future r, past ++ future = history ++ (depth, definition) :: more →
        (reached past).store.cell r = .suspended (.lookup env name) →
        ∀ n, (force (n + 1) r).verdict later = (force n c).verdict later ∧
          ∀ v last, force (n + 1) r later = .ok v last →
            last.cell r = .value v ∧ last.cell c = .value v := by
  intro later
  have stepped := bound
  rw [reached_append] at stepped
  have word := word_of_loaded (housed_reached history) loads found unbound stepped
  have legible := legible_of_word word ne_ap not_numeral
  have bound' : (later.table env).lookup name = some c := by
    have once := reached_writeOnce (history ++ [(depth, definition)]) more
    rw [List.append_assoc] at once
    exact once.bound env name c bound
  refine ⟨fun n => ?_, fun n => ?_, fun past future r split suspended n => ?_⟩
  · rw [parse_name legible, reference_of_bound bound']
    rfl
  · refine ⟨_, _, ?_, Store.cell_alloc_self (reached history).store _⟩
    rw [parse_name legible, reference_of_unbound unbound]
    rfl
  · have linked : Linked env name r later := by
      show Linked env name r (reached (history ++ (depth, definition) :: more)).store
      rw [← split, reached_append]
      exact continued_linked future (sound_reached past) (housed_reached past) (Or.inl suspended)
    exact linked_forces linked (sound_reached _).represented bound' n

/-- A name is mentioned twice before it is defined, by the second line of a batch that fails in its
third. The references have been forced since, and hold the value of the cell. -/
theorem defined_name_refers_forward :
    let history := [(20, Step.ofCommand (.environment (.load "sum = ap ap add base base")))]
    let definition := Step.ofCommand
      (.environment (.load "\nbase = ap inc 20\nsum = 1\nrest = 2"))
    let more := [(20, Step.ofCommand (.demand (.eval "sum")))]
    let later := (reached (history ++ (20, definition) :: more)).store
    (reached history).store.cell ⟨19⟩ = .suspended (.lookup ⟨0⟩ "base") ∧
      later.cell ⟨19⟩ = .value (.num 21) ∧ Reader.parse 20 ⟨0⟩ "base" later = .ok ⟨24⟩ later ∧
      (force 20 ⟨24⟩).verdict later = .ok (.num 21) ∧
      (force 21 ⟨19⟩).verdict later = (force 20 ⟨24⟩).verdict later := by
  intro history definition more later
  have suspended : (reached history).store.cell ⟨19⟩ = .suspended (.lookup ⟨0⟩ "base") := by
    decide +kernel
  have found : (reached history).environments.lookup definition.env = some ⟨0⟩ := by decide +kernel
  have unbound : ((reached history).store.table ⟨0⟩).lookup "base" = none := by decide +kernel
  have bound : ((reached (history ++ [(20, definition)])).store.table ⟨0⟩).lookup "base" =
      some ⟨24⟩ := by decide +kernel
  obtain ⟨mentions, -, references⟩ :=
    defined_name_refers history more 20 rfl found unbound bound (by decide) (by decide)
  exact ⟨suspended, by decide +kernel, mentions 20, by decide +kernel,
    (references history ((20, definition) :: more) ⟨19⟩ rfl suspended 20).1⟩

/-- **Words that are not read as names can be defined, but not mentioned.** An integer is read as a new
cell that holds the integer, whatever it is bound to, and `ap` as the beginning of an application. -/
theorem unreadable_names :
    let store := (reached [(9, .ofCommand (.environment (.load "5 = 7\nap = 8")))]).store
    (store.table ⟨0⟩).lookup "5" = some ⟨19⟩ ∧ store.cell ⟨19⟩ = .value (.num 7) ∧
      (Reader.parse 9 ⟨0⟩ "5").verdict store = .ok ⟨21⟩ ∧
      ((Reader.parse 9 ⟨0⟩ "5").after store).cell ⟨21⟩ = .value (.num 5) ∧
      (store.table ⟨0⟩).lookup "ap" = some ⟨20⟩ ∧ store.cell ⟨20⟩ = .value (.num 8) ∧
      (Reader.parse 9 ⟨0⟩ "ap").verdict store = .error (.fault .unexpectedEnd) := by
  decide +kernel

end Session

end ByNeed
