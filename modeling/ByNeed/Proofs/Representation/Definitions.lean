/-
**Definitions keep the representation.**

The names of an environment stand for terms, and these are entered in the order in which the names
are bound (`Knows`). A line that takes effect enters the term of its expression; a batch that fails
has entered those of the lines before.

* `Definitions.entries`: what the lines of a text define, as expressions;
* `Builtins.entries`: the terms of the builtins;
* `load_ensures`: a batch enters the first so many of its entries, all of them if it succeeds;
* `create_ensures`: a new environment has the entries of the builtins.
-/

import ByNeed.Builtins
import ByNeed.Definitions
import ByNeed.Proofs.Representation.Reader

namespace ByNeed

open Reduction

/-! ### What is defined -/

/-- The name and the expression of a line that is a definition. -/
def Definitions.entry? (line : List Char) : Option (String × Expression) :=
  match Line.ofChars 0 line with
  | .ok (.definition name body) =>
    (Expression.ofListing? (lex (String.ofList body))).map fun e => (String.ofList name, e)
  | _ => none

/-- What the lines of a text define. -/
def Definitions.entries (code : String) : List (String × Expression) :=
  (Text.lines code.toList).filterMap entry?

/-- The terms of what lines define. -/
def entered (env : TableId) (made : List (String × Expression)) : List (String × Term) :=
  made.map fun (name, e) => (name, e.term env)

/-- The terms of values that refer to no cell. -/
def bareTerms (items : List (String × Value)) : List (String × Term) :=
  items.map fun (name, v) => (name, v.term fun _ => .nil)

/-- The terms of the builtins. -/
def Builtins.entries : List (String × Term) :=
  bareTerms Builtins.all

/-! ### What names stand for -/

/-- The glossary that gives the names of one environment a meaning. -/
def Reduction.Glossary.ofEntries (env : TableId) (entries : List (String × Term)) : Glossary :=
  fun table word => if table = env then entries.lookup word else none

/-- **The names of an environment stand for the terms entered**, in the order of their bindings. -/
structure Knows (env : TableId) (entries : List (String × Term)) (terms : Terms) (store : Store) :
    Prop where
  represents : Represents (.ofEntries env entries) terms store
  inside : env.index < store.tables.size
  names : (store.table env).map Prod.fst = entries.map Prod.fst

variable {env : TableId} {entries : List (String × Term)} {terms terms' : Terms}
  {store store' : Store} {x : CellId} {name : String} {t : Term}

theorem ofEntries_bind (missing : entries.lookup name = none) (t : Term) :
    (Glossary.ofEntries env entries).bind env name t =
      .ofEntries env (entries ++ [(name, t)]) := by
  funext table word
  unfold Glossary.bind Glossary.ofEntries
  by_cases here : table = env
  · by_cases same : word = name
    · rw [if_pos ⟨here, same⟩, if_pos here, same, lookup_append_self missing]
    · rw [if_neg fun both => same both.2, if_pos here, if_pos here, lookup_append_other same]
  · rw [if_neg fun both => here both.1, if_neg here, if_neg here]

namespace Knows

theorem missing (knows : Knows env entries terms store)
    (unbound : (store.table env).lookup name = none) : entries.lookup name = none := by
  have meaningless := knows.represents.unbound env name unbound
  unfold Glossary.ofEntries at meaningless
  rwa [if_pos rfl] at meaningless

theorem grows (knows : Knows env entries terms store)
    (grows : Grows (.ofEntries env entries) terms store terms' store') :
    Knows env entries terms' store' where
  represents := grows.represents
  inside := by
    rw [grows.tables]
    exact knows.inside
  names := by
    unfold Store.table
    rw [grows.tables]
    exact knows.names

/-- A name is bound. -/
theorem bind (knows : Knows env entries terms store)
    (unbound : (store.table env).lookup name = none) (there : store.Has x)
    (reduces : t.Reduces (.ofEntries env entries) (terms.of x)) :
    Knows env (entries ++ [(name, t)]) terms (store.bindName env name x) where
  represents := by
    rw [← ofEntries_bind (knows.missing unbound)]
    exact knows.represents.bindName knows.inside unbound there reduces
  inside := by
    have inside := knows.inside
    simpa [Store.bindName] using inside
  names := by
    rw [Store.table_bindName knows.inside, if_pos rfl, List.map_append, knows.names]
    simp

end Knows

/-- A name is bound if it is not bound already. -/
theorem define_ensures {good : Unit → Store → Prop} {bad : Failure → Store → Prop}
    (free : (store.table env).lookup name = none → good () (store.bindName env name x))
    (taken : ∀ y, (store.table env).lookup name = some y →
      bad (.fault (.duplicateSymbol name)) store) :
    (Environment.define env name x).Ensures store good bad := by
  show Eval.Ensures (get >>= _) store _ _
  rw [Eval.ensures_bind, Eval.ensures_get]
  cases found : (store.table env).lookup name with
  | some y => exact taken y found
  | none => exact free found

/-! ### Lines and batches -/

theorem ofChars_eq_ok {number : Nat} {line : List Char} {content : Definitions.Line}
    (found : Definitions.Line.ofChars number line = .ok content) (other : Nat) :
    Definitions.Line.ofChars other line = .ok content := by
  unfold Definitions.Line.ofChars at found ⊢
  split at found
  · rwa [if_pos ‹_›]
  · rw [if_neg ‹_›]
    split at found
    · split at found
      · simp only [*]
      · cases found
    · cases found

/-- **A line** that takes effect enters what it defines. -/
theorem defineLine_ensures (depth number : Nat) (line : List Char)
    (knows : Knows env entries terms store) :
    (Definitions.defineLine depth env number line).Ensures store
      (fun _ store' => ∃ terms', Knows env
        (entries ++ entered env (Definitions.entry? line).toList) terms' store')
      fun _ store' => ∃ terms', Knows env entries terms' store' := by
  unfold Definitions.defineLine
  cases found : Definitions.Line.ofChars number line with
  | error reason => exact ⟨terms, knows⟩
  | ok content =>
    have same := ofChars_eq_ok found 0
    cases content with
    | blank =>
      have nothing : Definitions.entry? line = none := by rw [Definitions.entry?, same]
      rw [nothing]
      exact ⟨terms, by simpa [entered] using knows⟩
    | definition name body =>
      refine (parse_ensures depth (String.ofList body) knows.represents).bind ?_ ?_
      · rintro x store₁ ⟨terms₁, e, built, listed, -, there, reduces⟩
        have known := knows.grows built.grows
        rw [Eval.ensures_bind]
        refine define_ensures (fun unbound => ?_) fun _ _ => ⟨terms₁, known⟩
        have entry : Definitions.entry? line = some (String.ofList name, e) := by
          rw [Definitions.entry?, same]
          simp only [Expression.ofListing?_eq_some_iff.mpr listed, Option.map_some]
        rw [entry]
        exact ⟨terms₁, known.bind unbound there reduces⟩
      · rintro failure store₁ ⟨terms₁, built, -⟩
        exact ⟨terms₁, knows.grows built.grows⟩

/-- **Lines** enter the first so many of what they define. -/
theorem defineLines_ensures (depth number count : Nat) (lines : List (List Char))
    (knows : Knows env entries terms store) :
    (Definitions.defineLines depth env number count lines).Ensures store
      (fun _ store' => ∃ terms', Knows env
        (entries ++ entered env (lines.filterMap Definitions.entry?)) terms' store')
      fun _ store' => ∃ terms' k, Knows env
        (entries ++ entered env ((lines.filterMap Definitions.entry?).take k)) terms' store' := by
  induction lines generalizing number count entries terms store with
  | nil => exact ⟨terms, by simpa [entered] using knows⟩
  | cons line rest ih =>
    rw [Definitions.defineLines]
    refine (defineLine_ensures depth number line knows).bind ?_ ?_
    · rintro defined store₁ ⟨terms₁, known⟩
      have listed : (line :: rest).filterMap Definitions.entry? =
          (Definitions.entry? line).toList ++ rest.filterMap Definitions.entry? := by
        cases entry : Definitions.entry? line <;> simp [entry]
      rw [listed]
      refine (ih (number + 1) (count + defined) known).mono ?_ ?_
      · rintro total store₂ ⟨terms₂, known⟩
        exact ⟨terms₂, by simpa [entered] using known⟩
      · rintro failure store₂ ⟨terms₂, k, known⟩
        refine ⟨terms₂, (Definitions.entry? line).toList.length + k, ?_⟩
        rw [List.take_length_add_append]
        simpa [entered] using known
    · rintro failure store₁ ⟨terms₁, known⟩
      exact ⟨terms₁, 0, by simpa [entered] using known⟩

/-- **A batch of definitions** enters the first so many of its entries. -/
theorem load_ensures (depth : Nat) (code : String) (knows : Knows env entries terms store) :
    (Definitions.load depth env code).Ensures store
      (fun _ store' => ∃ terms', Knows env
        (entries ++ entered env (Definitions.entries code)) terms' store')
      fun _ store' => ∃ terms' k, Knows env
        (entries ++ entered env ((Definitions.entries code).take k)) terms' store' :=
  defineLines_ensures depth 1 0 (Text.lines code.toList) knows

/-! ### Builtins -/

theorem term_of_bare {v : Value} (bare : v.cells = []) (first second : CellId → Term) :
    v.term first = v.term second := by
  cases v with
  | num n => rfl
  | nil => rfl
  | pair head tail => cases bare
  | func f => cases f <;> first | rfl | cases bare

/-- Values that refer to no cell are given names that are not bound yet. -/
theorem register_ensures {items : List (String × Value)} (bare : ∀ item ∈ items, item.2.cells = [])
    (distinct : (entries.map Prod.fst ++ items.map Prod.fst).Nodup)
    (knows : Knows env entries terms store) :
    (items.forM fun (name, v) => do Environment.define env name (← Eval.value v)).Ensures store
      (fun _ store' => ∃ terms', Knows env (entries ++ bareTerms items) terms' store')
      fun _ _ => False := by
  induction items generalizing entries terms store with
  | nil => exact ⟨terms, by simpa [bareTerms] using knows⟩
  | cons item rest ih =>
    obtain ⟨name, v⟩ := item
    have alone : v.cells = [] := bare _ List.mem_cons_self
    show Eval.Ensures (((Eval.value v) >>= fun x => Environment.define env name x) >>=
      fun _ => rest.forM _) store _ _
    rw [Eval.ensures_bind, Eval.ensures_bind, Eval.ensures_value]
    have stands : (Cell.value v).StandsFor (.ofEntries env entries) terms (v.term fun _ => .nil) := by
      refine ⟨fun y member => ?_, ?_⟩
      · rw [alone] at member
        cases member
      · rw [term_of_bare alone _ terms.of]
        exact .term v
    have known := knows.grows (Built.alloc knows.represents stands).grows
    refine define_ensures (fun unbound => ?_) fun y bound => ?_
    · have entered := known.bind unbound (Store.has_alloc store (.value v))
        (t := v.term fun _ => .nil) (by rw [knows.represents.of_alloc]; exact .refl _)
      refine (ih (fun item member => bare item (List.mem_cons_of_mem _ member)) ?_ entered).mono
        (fun _ store' later => ?_) fun _ _ never => never
      · simpa using distinct
      · simpa [bareTerms] using later
    · have member : name ∈ entries.map Prod.fst := by
        rw [← known.names]
        exact List.mem_map_of_mem (mem_of_lookup bound)
      exact (List.nodup_append.mp distinct).2.2 name member name List.mem_cons_self rfl

theorem builtins_bare : ∀ item ∈ Builtins.all, item.2.cells = [] := by decide

theorem builtins_distinct : (Builtins.all.map Prod.fst).Nodup := by decide

/-- An environment without names, in a store without cells. -/
theorem knows_nothing : Knows ⟨0⟩ [] [] Store.empty.allocTable.2 := by
  have nothing : ∀ table, Store.empty.allocTable.2.table table = [] := by
    rintro ⟨i⟩
    cases i <;> rfl
  refine ⟨⟨rfl, ?_, ?_, ?_⟩, Nat.zero_lt_one, rfl⟩
  · intro x there
    exact absurd there (Nat.not_lt_zero x.index)
  · intro table name x found
    rw [nothing table] at found
    cases found
  · intro table name _
    unfold Glossary.ofEntries
    split <;> rfl

/-- **A new environment knows the builtins.** -/
theorem create_ensures :
    Builtins.create.Ensures Store.empty
      (fun env store => env = ⟨0⟩ ∧ ∃ terms, Knows env Builtins.entries terms store)
      fun _ _ => False := by
  have knows := knows_nothing
  rw [Builtins.create, Eval.ensures_bind, Environment.create, Eval.ensures_modifyGet]
  rw [show Store.empty.allocTable.1 = ⟨0⟩ from rfl]
  -- Nothing but what is known of the store matters from here on.
  generalize Store.empty.allocTable.2 = store at knows ⊢
  have distinct : (([] : List (String × Term)).map Prod.fst ++ Builtins.all.map Prod.fst).Nodup :=
    builtins_distinct
  refine (register_ensures builtins_bare distinct knows).bind
    (fun _ store known => ⟨rfl, known⟩) fun _ _ never => never

end ByNeed
