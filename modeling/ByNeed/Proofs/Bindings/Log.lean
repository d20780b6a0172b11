/-
**Bindings are logged.**

Defining adds bindings at the end of a table and leaves the others as they are (`Store.Logs`). Items
are bound up to the first whose name is bound already, and lines are carried out up to the first that
fails, which itself binds nothing.

* `defineAll_logs`: **what items add**;
* `Carried`: lines that were carried out, with the bindings that they added;
* `defineLines_carried`: **what lines add**, each that is not blank one binding
  (`Carried.length_added`);
* `create_logs`: a new environment leaves the others as they are.
-/

import ByNeed.Proofs.Bindings
import ByNeed.Proofs.Bindings.Kept

namespace ByNeed

/-! ### Logs -/

namespace Store

variable {store later last : Store} {env t : TableId} {name : String} {x : CellId}
  {added more : Table}

/-- The names that are bound in a table, in the order of their bindings. -/
def names (store : Store) (t : TableId) : List String :=
  (store.table t).map Prod.fst

/-- **Bindings are added at the end of a table**, the other tables are as they were, and no name is
bound twice if none was. -/
structure Logs (env : TableId) (added : Table) (store later : Store) : Prop where
  table : later.table env = store.table env ++ added
  others : ∀ t, t ≠ env → t.index < store.tables.size → later.table t = store.table t
  size : store.tables.size ≤ later.tables.size
  nodup : (∀ t, (store.names t).Nodup) → ∀ t, (later.names t).Nodup

/-- The bindings of all tables are as they were. -/
theorem Logs.of_table (same : ∀ t, later.table t = store.table t)
    (size : store.tables.size ≤ later.tables.size) : Logs env [] store later where
  table := by rw [same, List.append_nil]
  others t _ _ := same t
  size := size
  nodup distinct t := by
    rw [names, same]
    exact distinct t

theorem Logs.of_tables (same : later.tables = store.tables) : Logs env [] store later :=
  .of_table (table_congr same) (Nat.le_of_eq (congrArg Array.size same.symm))

theorem Logs.trans (first : Logs env added store later) (second : Logs env more later last) :
    Logs env (added ++ more) store last where
  table := by rw [second.table, first.table, List.append_assoc]
  others t other inside := by
    rw [second.others t other (Nat.lt_of_lt_of_le inside first.size), first.others t other inside]
  size := Nat.le_trans first.size second.size
  nodup distinct := second.nodup (first.nodup distinct)

theorem not_mem_names (unbound : (store.table t).lookup name = none) : name ∉ store.names t := by
  intro member
  obtain ⟨binding, bound, same⟩ := List.mem_map.mp member
  have missing := List.lookup_eq_none_iff.mp unbound binding bound
  simp [same] at missing

/-- A name that is free is bound. -/
theorem Logs.bindName (inside : env.index < store.tables.size)
    (unbound : (store.table env).lookup name = none) (x : CellId) :
    Logs env [(name, x)] store (store.bindName env name x) where
  table := by rw [table_bindName inside, if_pos rfl]
  others t other _ := by rw [table_bindName inside, if_neg other]
  size := by simp [Store.bindName]
  nodup distinct t := by
    rw [names, table_bindName inside]
    by_cases same : t = env
    · rw [if_pos same, List.map_append, List.nodup_append]
      refine ⟨distinct env, by simp, ?_⟩
      rintro bound member _ single rfl
      have here : bound = name := by simpa using single
      exact not_mem_names unbound (here ▸ member)
    · rw [if_neg same]
      exact distinct t

/-- What is logged extends every table. -/
theorem Logs.isPrefix (logs : Logs env added store later) (t : TableId) :
    store.table t <+: later.table t := by
  by_cases same : t = env
  · rw [same, logs.table]
    exact List.prefix_append _ _
  · by_cases inside : t.index < store.tables.size
    · exact logs.others t same inside ▸ List.prefix_refl _
    · have nothing : store.table t = [] := by simp [Store.table, Array.getD, inside]
      rw [nothing]
      exact List.nil_prefix

end Store

open Store (Logs)

variable {store later : Store} {env : TableId} {name : String} {x : CellId} {added : Table}
  {depth number : Nat}

/-! ### Items -/

theorem define_of_unbound (unbound : (store.table env).lookup name = none) (x : CellId) :
    Environment.define env name x store = .ok () (store.bindName env name x) := by
  have read : Environment.lookup env name store = .ok none store := by
    rw [← unbound]
    rfl
  rw [Environment.define, bind_of_ok read]
  rfl

theorem define_of_bound {y : CellId} (bound : (store.table env).lookup name = some y) (x : CellId) :
    Environment.define env name x store = .error (.fault (.duplicateSymbol name)) store := by
  have read : Environment.lookup env name store = .ok (some y) store := by
    rw [← bound]
    rfl
  rw [Environment.define, bind_of_ok read]
  rfl

/-- **Items are bound up to the first whose name is bound already**, or all of them. -/
theorem defineAll_logs (items : Table) (inside : env.index < store.tables.size) :
    (Environment.defineAll env items).Ensures store (fun _ later => Logs env items store later)
      fun failure later => ∃ done item rest, items = done ++ item :: rest ∧
        (∃ y, (store.table env ++ done).lookup item.1 = some y) ∧
        failure = .fault (.duplicateSymbol item.1) ∧ Logs env done store later := by
  induction items generalizing store with
  | nil => exact .of_tables rfl
  | cons item rest ih =>
    show (Environment.define env item.1 item.2 >>= fun _ =>
      Environment.defineAll env rest).Ensures store _ _
    rw [Eval.ensures_bind]
    unfold Eval.Ensures
    cases found : (store.table env).lookup item.1 with
    | some y =>
      rw [define_of_bound found]
      exact ⟨[], item, rest, rfl, ⟨y, by rwa [List.append_nil]⟩, rfl, .of_tables rfl⟩
    | none =>
      rw [define_of_unbound found]
      have logs := Logs.bindName inside found item.2
      refine (ih (Nat.lt_of_lt_of_le inside logs.size)).mono (fun _ later more => logs.trans more) ?_
      rintro failure later ⟨done, next, rest, rfl, ⟨y, bound⟩, same, more⟩
      refine ⟨item :: done, next, rest, rfl, ⟨y, ?_⟩, same, logs.trans more⟩
      rw [logs.table, List.append_assoc] at bound
      exact bound

/-! ### Lines -/

open Definitions (Line defineLine defineLines)

/-- **Lines were carried out, one after the other**, of which the first has the given number, with
the bindings that they added: a line that is blank adds nothing, and a definition binds its name,
which must be free, to the cell that reading its body answers. -/
inductive Carried (depth : Nat) (env : TableId) :
    Nat → List (List Char) → Store → Table → Store → Prop
  | nil {number : Nat} {store : Store} : Carried depth env number [] store [] store
  | blank {number : Nat} {line : List Char} {rest : List (List Char)} {store later : Store}
      {added : Table} : Line.ofChars number line = .ok .blank →
      Carried depth env (number + 1) rest store added later →
      Carried depth env number (line :: rest) store added later
  | definition {number : Nat} {line name body : List Char} {rest : List (List Char)} {x : CellId}
      {store middle later : Store} {added : Table} :
      Line.ofChars number line = .ok (.definition name body) →
      Reader.parse depth env (String.ofList body) store = .ok x middle →
      (middle.table env).lookup (String.ofList name) = none →
      Carried depth env (number + 1) rest (middle.bindName env (String.ofList name) x) added later →
      Carried depth env number (line :: rest) store ((String.ofList name, x) :: added) later

theorem parse_tables {code : String} (read : Reader.parse depth env code store = .ok x later) :
    later.tables = store.tables :=
  ((parse_keeps depth env code store).ok x later read).1

theorem Carried.logs {lines : List (List Char)} (inside : env.index < store.tables.size)
    (carried : Carried depth env number lines store added later) : Logs env added store later := by
  induction carried with
  | nil => exact .of_tables rfl
  | blank _ _ ih => exact ih inside
  | @definition number line name body rest x store middle later added _ read unbound _ ih =>
    have same := parse_tables read
    have inside' : env.index < middle.tables.size := by rwa [same]
    have logs := Logs.bindName inside' unbound x
    exact (Logs.of_tables same).trans (logs.trans (ih (Nat.lt_of_lt_of_le inside' logs.size)))

/-- A line is blank exactly if it has no words. -/
theorem words_of_ofChars {line : List Char} {content : Line}
    (read : Line.ofChars number line = .ok content) : Text.words line = [] ↔ content = .blank := by
  unfold Line.ofChars at read
  by_cases blank : Text.words line = []
  · rw [if_pos blank] at read
    cases read
    simp [blank]
  · rw [if_neg blank] at read
    split at read
    · split at read
      · cases read
        simp [blank]
      · cases read
    · cases read

/-- Every line that is not blank adds a binding. -/
theorem Carried.length_added {lines : List (List Char)}
    (carried : Carried depth env number lines store added later) :
    added.length = (lines.filter fun line => Text.words line ≠ []).length := by
  induction carried with
  | nil => rfl
  | blank read _ ih =>
    have blank := (words_of_ofChars read).mpr rfl
    rw [List.filter_cons_of_neg (by simpa using blank), ih]
  | definition read _ _ _ ih =>
    have written : Text.words _ ≠ [] := fun blank => nomatch (words_of_ofChars read).mp blank
    rw [List.filter_cons_of_pos (by simpa using written), List.length_cons, List.length_cons, ih]

/-- A line that is carried out is blank, or is a definition that binds its name. -/
theorem defineLine_eq_ok {line : List Char} {defined : Nat}
    (ended : defineLine depth env number line store = .ok defined later) :
    (Line.ofChars number line = .ok .blank ∧ defined = 0 ∧ later = store) ∨
      ∃ name body x middle, Line.ofChars number line = .ok (.definition name body) ∧
        Reader.parse depth env (String.ofList body) store = .ok x middle ∧
        (middle.table env).lookup (String.ofList name) = none ∧ defined = 1 ∧
        later = middle.bindName env (String.ofList name) x := by
  unfold defineLine at ended
  cases read : Line.ofChars number line with
  | error reason =>
    rw [read] at ended
    cases ended
  | ok content =>
    rw [read] at ended
    cases content with
    | blank =>
      cases ended
      exact Or.inl ⟨rfl, rfl, rfl⟩
    | definition name body =>
      obtain ⟨x, middle, parsed, ended⟩ := bind_eq_ok ended
      obtain ⟨_, last, bound, ended⟩ := bind_eq_ok ended
      cases found : (middle.table env).lookup (String.ofList name) with
      | some y =>
        rw [define_of_bound found] at bound
        cases bound
      | none =>
        rw [define_of_unbound found] at bound
        cases bound
        cases ended
        exact Or.inr ⟨name, body, x, middle, rfl, parsed, found, rfl, rfl⟩

/-- A line that fails binds nothing. -/
theorem defineLine_tables {line : List Char} {failure : Failure}
    (ended : defineLine depth env number line store = .error failure later) :
    later.tables = store.tables := by
  unfold defineLine at ended
  cases read : Line.ofChars number line with
  | error reason =>
    rw [read] at ended
    cases ended
    rfl
  | ok content =>
    rw [read] at ended
    cases content with
    | blank => cases ended
    | definition name body =>
      rcases bind_eq_error ended with parsed | ⟨x, middle, parsed, ended⟩
      · exact (parse_keeps depth env _ store).error failure later parsed
      · rcases bind_eq_error ended with bound | ⟨_, last, _, ended⟩
        · cases found : (middle.table env).lookup (String.ofList name) with
          | some y =>
            rw [define_of_bound found] at bound
            cases bound
            exact parse_tables parsed
          | none =>
            rw [define_of_unbound found] at bound
            cases bound
        · cases ended

/-- **Lines are carried out up to the first that fails**, or all of them. -/
theorem defineLines_carried (lines : List (List Char)) (number count : Nat) :
    (defineLines depth env number count lines).Ensures store
      (fun total later => ∃ added, Carried depth env number lines store added later ∧
        total = count + added.length)
      fun failure later => ∃ done line rest added middle, lines = done ++ line :: rest ∧
        Carried depth env number done store added middle ∧
        defineLine depth env (number + done.length) line middle = .error failure later := by
  induction lines generalizing number count store with
  | nil => exact ⟨[], .nil, rfl⟩
  | cons line rest ih =>
    rw [defineLines, Eval.ensures_bind]
    rw [Eval.ensures_iff]
    constructor
    · intro defined store₁ ended
      rcases defineLine_eq_ok ended with ⟨read, rfl, rfl⟩ |
        ⟨name, body, x, middle, read, parsed, unbound, rfl, rfl⟩
      · refine (ih (number + 1) (count + 0)).mono ?_ ?_
        · rintro total later ⟨added, carried, rfl⟩
          exact ⟨added, .blank read carried, rfl⟩
        · rintro failure later ⟨done, next, rest, added, middle, rfl, carried, failed⟩
          refine ⟨line :: done, next, rest, added, middle, rfl, .blank read carried, ?_⟩
          rwa [List.length_cons, Nat.add_comm done.length, ← Nat.add_assoc]
      · refine (ih (number + 1) (count + 1)).mono ?_ ?_
        · rintro total later ⟨added, carried, rfl⟩
          refine ⟨(String.ofList name, x) :: added, .definition read parsed unbound carried, ?_⟩
          rw [List.length_cons, Nat.add_assoc, Nat.add_comm 1]
        · rintro failure later ⟨done, next, rest, added, last, rfl, carried, failed⟩
          refine ⟨line :: done, next, rest, (String.ofList name, x) :: added, last, rfl,
            .definition read parsed unbound carried, ?_⟩
          rwa [List.length_cons, Nat.add_comm done.length, ← Nat.add_assoc]
    · intro failure later ended
      exact ⟨[], line, rest, [], store, rfl, .nil, ended⟩

/-! ### New environments -/

/-- Bindings are added at the end of a table that is there. -/
structure Store.Appends (env : TableId) (store later : Store) : Prop where
  inside : env.index < store.tables.size
  logs : ∃ added, Logs env added store later

instance : Trans (Store.Appends env) (Store.Appends env) (Store.Appends env) where
  trans first second := by
    obtain ⟨added, logs⟩ := first.logs
    obtain ⟨more, logs'⟩ := second.logs
    exact ⟨first.inside, added ++ more, logs.trans logs'⟩

theorem Store.Appends.refl (inside : env.index < store.tables.size) : store.Appends env store :=
  ⟨inside, [], .of_tables rfl⟩

theorem Store.Appends.settled (appends : store.Appends env later) : later.Appends env later := by
  obtain ⟨added, logs⟩ := appends.logs
  exact .refl (Nat.lt_of_lt_of_le appends.inside logs.size)

/-- The builtins are bound in a table. -/
theorem register_appends (inside : env.index < store.tables.size) :
    Moves (Store.Appends env) (Builtins.register env) store fun _ _ => True := by
  refine .forM (.refl inside) Store.Appends.settled fun item _ store₁ appends => ?_
  have there := appends.settled.inside
  have valued : Moves (Store.Appends env) (Eval.value item.2) store₁ fun _ _ => True := by
    refine (value_respects tables_allow item.2 store₁).imp fun later same => ?_
    exact ⟨there, [], .of_tables same⟩
  refine valued.bind fun x store₂ appends₂ _ => ?_
  have there₂ := appends₂.settled.inside
  constructor
  · intro _ later ended
    cases found : (store₂.table env).lookup item.1 with
    | some y =>
      rw [define_of_bound found] at ended
      cases ended
    | none =>
      rw [define_of_unbound found] at ended
      cases ended
      exact ⟨⟨there₂, _, .bindName there₂ found x⟩, trivial⟩
  · intro failure later ended
    cases found : (store₂.table env).lookup item.1 with
    | some y =>
      rw [define_of_bound found] at ended
      cases ended
      exact .refl there₂
    | none =>
      rw [define_of_unbound found] at ended
      cases ended

/-- A new table has no bindings, and leaves the others as they are. -/
theorem logs_allocTable (env : TableId) : Logs env [] store store.allocTable.2 :=
  .of_table table_allocTable (by simp [Store.allocTable])

theorem inside_allocTable : store.allocTable.1.index < store.allocTable.2.tables.size := by
  simp [Store.allocTable]

/-- A table that is there is not the new one. -/
theorem ne_allocTable (inside : env.index < store.tables.size) : env ≠ store.allocTable.1 := by
  rintro rfl
  exact Nat.lt_irrefl _ inside

/-- What is added to a new table leaves the others as they are. -/
theorem Store.Appends.beside (inside : env.index < store.tables.size)
    (appends : store.allocTable.2.Appends store.allocTable.1 later) : Logs env [] store later := by
  obtain ⟨added, logs⟩ := appends.logs
  have first : Logs env [] store store.allocTable.2 := logs_allocTable env
  refine ⟨?_, fun t _ there => ?_, Nat.le_trans first.size logs.size,
    fun distinct => logs.nodup (first.nodup distinct)⟩
  · rw [logs.others env (ne_allocTable inside) (Nat.lt_of_lt_of_le inside first.size),
      table_allocTable, List.append_nil]
  · rw [logs.others t (ne_allocTable there) (Nat.lt_of_lt_of_le there first.size), table_allocTable]

/-- An environment with the builtins is made beside the others. -/
theorem create_logs (inside : env.index < store.tables.size) :
    Moves (fun store later => Logs env [] store later) Builtins.create store fun table later =>
      table.index < later.tables.size := by
  have made : Environment.create store = .ok store.allocTable.1 store.allocTable.2 := rfl
  have registers := register_appends (inside_allocTable : _ < store.allocTable.2.tables.size)
  constructor
  · intro table later ended
    rw [Builtins.create, bind_of_ok made] at ended
    obtain ⟨_, middle, registered, ended⟩ := bind_eq_ok ended
    cases ended
    have appends := (registers.ok _ _ registered).1
    exact ⟨appends.beside inside, appends.settled.inside⟩
  · intro failure later ended
    rw [Builtins.create, bind_of_ok made] at ended
    rcases bind_eq_error ended with registered | ⟨_, middle, _, ended⟩
    · exact (registers.error _ _ registered).beside inside
    · cases ended

end ByNeed
