/-
**Stores as terms.**

Every cell of a store stands for a call-by-name term, which is fixed when the cell is added. A store
represents its terms under a glossary if

* a suspended cell stands for a term that comes down to the work of the suspension, up to early
  reduction, and
* a cell with a value stands for a term whose weak head normal form is that value, up to early
  reduction.

So terms are as they would be if nothing had been shared and nothing reduced early, and the relation
survives every change to the store (`Represents.alloc`, `Represents.commit`, `Represents.bindName`).
-/

import ByNeed.Proofs.Computation
import ByNeed.Proofs.Evolution
import ByNeed.Proofs.Reduction.Early

namespace ByNeed

open Reduction
open Reduction.Action (Yields Fails Passes Continues)

/-! ### What values and suspensions stand for -/

/-- The cells that a value refers to. -/
def Value.cells : Value → List CellId
  | .num _ => []
  | .nil => []
  | .pair head tail => [head, tail]
  | .func f => f.held

/-- The cells that a suspension refers to. -/
def Suspension.cells : Suspension → List CellId
  | .apply f x => [f, x]
  | .half _ x => [x]
  | .lookup _ _ => []
  | .observe _ x => [x]
  | .monop _ x => [x]
  | .binop _ x y => [x, y]
  | .isNil x => [x]
  | .share a b c => [a, b, c]

/-- The weak head normal form that a function is, given the terms of the cells. -/
def Func.whnf (terms : CellId → Term) : Func → Whnf
  | .unary f => .unary f
  | .binary f => .binary f
  | .binaryOn f x => .binaryOn f (terms x)
  | .ternary f => .ternary f
  | .ternaryOn f x => .ternaryOn f (terms x)
  | .ternaryOnTwo f x y => .ternaryOnTwo f (terms x) (terms y)

/-- The weak head normal form that a value is, given the terms of the cells. -/
def Value.whnf (terms : CellId → Term) : Value → Whnf
  | .num n => .num n
  | .nil => .nil
  | .pair head tail => .pair (terms head) (terms tail)
  | .func f => f.whnf terms

/-- The action that a suspension is, given the terms of the cells. -/
def Suspension.action (terms : CellId → Term) : Suspension → Action
  | .apply f x => .demand (terms f) (.argument (terms x))
  | .half side x => .demand (terms x) (.half side)
  | .lookup table name => .lookup table name
  | .observe _ x => .become (terms x)
  | .monop op x => .demand (terms x) (.monop op)
  | .binop op x y => .demand (terms x) (.firstOperand op (terms y))
  | .isNil x => .demand (terms x) (.isNil (terms x))
  | .share a b c => .become (.app (.app (terms a) (terms c)) (.app (terms b) (terms c)))

/-- A term for a function, which applies a primitive to the arguments that the function holds. -/
def Func.term (terms : CellId → Term) : Func → Term
  | .unary f => .unary f
  | .binary f => .binary f
  | .binaryOn f x => .app (.binary f) (terms x)
  | .ternary f => .ternary f
  | .ternaryOn f x => .app (.ternary f) (terms x)
  | .ternaryOnTwo f x y => .app (.app (.ternary f) (terms x)) (terms y)

/-- A term for a value. -/
def Value.term (terms : CellId → Term) : Value → Term
  | .num n => .num n
  | .nil => .nil
  | .pair head tail => .app (.app (.binary .cons) (terms head)) (terms tail)
  | .func f => f.term terms

theorem whnf_boolean (terms : CellId → Term) (flag : Bool) :
    (boolean flag).whnf terms = truth flag := by
  cases flag <;> rfl

/-! ### Bindings -/

section Bindings

variable {α : Type} {bindings : List (String × α)} {name other : String}

/-- What is found is bound. -/
theorem mem_of_lookup {a : α} (found : bindings.lookup name = some a) : (name, a) ∈ bindings := by
  obtain ⟨before, after, rfl, -⟩ := List.lookup_eq_some_iff.mp found
  simp

/-- A new binding is found. -/
theorem lookup_append_self (missing : bindings.lookup name = none) (a : α) :
    (bindings ++ [(name, a)]).lookup name = some a := by
  rw [List.lookup_append, missing]
  simp

/-- The other names are bound as they were. -/
theorem lookup_append_other (different : other ≠ name) (a : α) :
    (bindings ++ [(name, a)]).lookup other = bindings.lookup other := by
  have mismatch : (other == name) = false := by simpa using different
  rw [List.lookup_append]
  simp [List.lookup_cons, mismatch]

end Bindings

/-! ### The terms of the cells -/

/-- The terms that the cells stand for, in the order of the cells. -/
abbrev Terms := List Term

namespace Terms

variable {terms later : Terms} {x : CellId}

/-- The term that a cell stands for. -/
def of (terms : Terms) (x : CellId) : Term :=
  terms.getD x.index .nil

/-- There are terms for several cells. -/
def Covers (terms : Terms) (cells : List CellId) : Prop :=
  ∀ x ∈ cells, x.index < terms.length

theorem of_of_isPrefix (grown : terms <+: later) (inside : x.index < terms.length) :
    later.of x = terms.of x := by
  obtain ⟨more, rfl⟩ := grown
  simp [Terms.of, List.getElem?_append_left inside]

theorem Covers.mono {cells : List CellId} (covers : terms.Covers cells) (grown : terms <+: later) :
    later.Covers cells :=
  fun x member => Nat.lt_of_lt_of_le (covers x member) grown.length_le

theorem of_append (terms : Terms) (t : Term) : of (terms ++ [t]) ⟨terms.length⟩ = t := by
  simp [Terms.of]

theorem whnf_of_isPrefix {v : Value} (grown : terms <+: later) (covers : terms.Covers v.cells) :
    v.whnf later.of = v.whnf terms.of := by
  have same : ∀ x ∈ v.cells, later.of x = terms.of x := fun x member =>
    of_of_isPrefix grown (covers x member)
  cases v with
  | num n => rfl
  | nil => rfl
  | pair head tail => simp_all [Value.cells, Value.whnf]
  | func f => cases f <;> simp_all [Value.cells, Func.held, Value.whnf, Func.whnf]

theorem action_of_isPrefix {s : Suspension} (grown : terms <+: later)
    (covers : terms.Covers s.cells) : s.action later.of = s.action terms.of := by
  have same : ∀ x ∈ s.cells, later.of x = terms.of x := fun x member =>
    of_of_isPrefix grown (covers x member)
  cases s <;> simp_all [Suspension.cells, Suspension.action]

end Terms

/-! ### Representation -/

/-- A term has a value as its weak head normal form, up to early reduction. -/
def Denotes (defs : Glossary) (terms : Terms) (t : Term) (v : Value) : Prop :=
  ∃ n w, Yields defs t.action n w ∧ w.Reduces defs (v.whnf terms.of)

/-- What a cell holds stands for a term. -/
def Cell.StandsFor (defs : Glossary) (terms : Terms) (t : Term) : Cell → Prop
  | .value v => terms.Covers v.cells ∧ Denotes defs terms t v
  | .suspended s =>
    terms.Covers s.cells ∧ ∃ b, Passes defs t.action b ∧ b.Reduces defs (s.action terms.of)

/-- **A store represents terms**, one for each cell, under a glossary for its tables. -/
structure Represents (defs : Glossary) (terms : Terms) (store : Store) : Prop where
  length : terms.length = store.cells.size
  cells : ∀ x, store.Has x → (store.cell x).StandsFor defs terms (terms.of x)
  bound : ∀ table name x, (store.table table).lookup name = some x →
    store.Has x ∧ ∃ t, defs table name = some t ∧ t.Reduces defs (terms.of x)
  unbound : ∀ table name, (store.table table).lookup name = none → defs table name = none

variable {defs : Glossary} {terms later : Terms} {t : Term} {store store' : Store} {x : CellId}
  {v : Value} {s : Suspension} {c : Cell}

/-- A term that is in weak head normal form. -/
theorem Denotes.of_action (answer : t.action = .answer (v.whnf terms.of)) :
    Denotes defs terms t v := by
  refine ⟨0, v.whnf terms.of, ?_, .refl _⟩
  rw [answer]
  exact .answer _

theorem Denotes.mono (denotes : Denotes defs terms t v) (covers : terms.Covers v.cells)
    (grown : terms <+: later) : Denotes defs later t v := by
  obtain ⟨n, w, yields, reduces⟩ := denotes
  exact ⟨n, w, yields, by rwa [Terms.whnf_of_isPrefix grown covers]⟩

theorem Cell.StandsFor.mono (stands : c.StandsFor defs terms t) (grown : terms <+: later) :
    c.StandsFor defs later t := by
  cases c with
  | value v =>
    obtain ⟨covers, denotes⟩ := stands
    exact ⟨covers.mono grown, denotes.mono covers grown⟩
  | suspended s =>
    obtain ⟨covers, b, passes, reduces⟩ := stands
    refine ⟨covers.mono grown, b, passes, ?_⟩
    rwa [Terms.action_of_isPrefix grown covers]

/-- A value is the weak head normal form of the term for it. -/
theorem Denotes.term (v : Value) : Denotes defs terms (v.term terms.of) v := by
  have primitive : ∀ {f : Binary}, Yields defs (Term.binary f).action 0 (.binary f) := .answer _
  have primitive' : ∀ {f : Ternary}, Yields defs (Term.ternary f).action 0 (.ternary f) := .answer _
  cases v with
  | num n => exact .of_action rfl
  | nil => exact .of_action rfl
  | pair head tail => exact ⟨_, _, .demand (.demand primitive (.answer _)) (.answer _), .refl _⟩
  | func f =>
    cases f with
    | unary f => exact .of_action rfl
    | binary f => exact .of_action rfl
    | binaryOn f x => exact ⟨_, _, .demand primitive (.answer _), .refl _⟩
    | ternary f => exact .of_action rfl
    | ternaryOn f x => exact ⟨_, _, .demand primitive' (.answer _), .refl _⟩
    | ternaryOnTwo f x y =>
      exact ⟨_, _, .demand (.demand primitive' (.answer _)) (.answer _), .refl _⟩

/-- What a cell holds stands for its term also when further names are given a meaning. -/
theorem Cell.StandsFor.more {defs' : Glossary} (stands : c.StandsFor defs terms t)
    (more : defs.Le defs') : c.StandsFor defs' terms t := by
  cases c with
  | value v =>
    obtain ⟨covers, n, w, yields, reduces⟩ := stands
    exact ⟨covers, n, w, yields.mono more, reduces.mono more⟩
  | suspended s =>
    obtain ⟨covers, b, passes, reduces⟩ := stands
    exact ⟨covers, b, passes.mono more, reduces.mono more⟩

namespace Represents

theorem has_iff (represents : Represents defs terms store) :
    store.Has x ↔ x.index < terms.length := by
  rw [represents.length]
  rfl

theorem covers (represents : Represents defs terms store) (there : store.Has x) :
    x.index < terms.length :=
  represents.has_iff.mp there

theorem value (represents : Represents defs terms store) (there : store.Has x)
    (holds : store.cell x = .value v) :
    terms.Covers v.cells ∧ Denotes defs terms (terms.of x) v := by
  have stands := represents.cells x there
  rwa [holds] at stands

theorem suspended (represents : Represents defs terms store)
    (suspended : store.cell x = .suspended s) :
    terms.Covers s.cells ∧
      ∃ b, Passes defs (terms.of x).action b ∧ b.Reduces defs (s.action terms.of) := by
  have stands := represents.cells x (Store.has_of_suspended suspended)
  rwa [suspended] at stands

/-- The new cell of a store stands for the last of its terms. -/
theorem of_alloc (represents : Represents defs terms store) (c : Cell) (t : Term) :
    Terms.of (terms ++ [t]) (store.alloc c).1 = t := by
  have place : (store.alloc c).1 = ⟨terms.length⟩ := by rw [represents.length]; rfl
  rw [place, Terms.of_append]

/-- **A cell is added.** -/
theorem alloc (represents : Represents defs terms store) (stands : c.StandsFor defs terms t) :
    Represents defs (terms ++ [t]) (store.alloc c).2 where
  length := by simp [represents.length, Store.alloc]
  cells x there := by
    have grown : terms <+: terms ++ [t] := List.prefix_append terms [t]
    rcases (Store.has_alloc_iff store c).mp there with there | rfl
    · rw [Store.cell_alloc_of_has there, Terms.of_of_isPrefix grown (represents.covers there)]
      exact (represents.cells x there).mono grown
    · rw [Store.cell_alloc_self, represents.of_alloc]
      exact stands.mono grown
  bound table name x found := by
    obtain ⟨there, t', known, reduces⟩ := represents.bound table name x found
    refine ⟨(Store.has_alloc_iff store c).mpr (Or.inl there), t', known, ?_⟩
    rwa [Terms.of_of_isPrefix (List.prefix_append terms [t]) (represents.covers there)]
  unbound := represents.unbound

/-- **A suspended cell is given its value.** -/
theorem commit (represents : Represents defs terms store)
    (suspended : store.cell x = .suspended s) (covers : terms.Covers v.cells)
    (denotes : Denotes defs terms (terms.of x) v) :
    Represents defs terms (store.commit x v) where
  length := by simp [represents.length, Store.commit]
  cells y there := by
    rw [Store.cell_commit (Store.has_of_suspended suspended)]
    by_cases same : y = x
    · rw [if_pos same, same]
      exact ⟨covers, denotes⟩
    · rw [if_neg same]
      exact represents.cells y ((Store.has_commit_iff store x v).mp there)
  bound table name y found := by
    obtain ⟨there, known⟩ := represents.bound table name y found
    exact ⟨(Store.has_commit_iff store x v).mpr there, known⟩
  unbound := represents.unbound

/-- Only the cells and the bindings matter. -/
theorem congr (represents : Represents defs terms store) (cells : store'.cells = store.cells)
    (tables : ∀ t, store'.table t = store.table t) : Represents defs terms store' where
  length := by rw [cells, represents.length]
  cells x there := by
    rw [Store.cell_congr cells]
    exact represents.cells x ((Store.has_congr cells).mp there)
  bound table name x found := by
    rw [tables] at found
    obtain ⟨there, known⟩ := represents.bound table name x found
    exact ⟨(Store.has_congr cells).mpr there, known⟩
  unbound table name missing := by
    rw [tables] at missing
    exact represents.unbound table name missing

/-- **A name is bound** to a cell that stands for an early reduction of a term. -/
theorem bindName {table : TableId} {name : String} (represents : Represents defs terms store)
    (inside : table.index < store.tables.size)
    (missing : (store.table table).lookup name = none) (there : store.Has x)
    (reduces : t.Reduces defs (terms.of x)) :
    Represents (defs.bind table name t) terms (store.bindName table name x) := by
  have more := Glossary.le_bind (represents.unbound table name missing) t
  refine ⟨represents.length, fun y there => (represents.cells y there).more more, ?_, ?_⟩
  · intro table' name' y found
    rw [Store.table_bindName inside] at found
    by_cases same : table' = table ∧ name' = name
    · obtain ⟨rfl, rfl⟩ := same
      rw [if_pos rfl, lookup_append_self missing] at found
      cases found
      exact ⟨there, t, by simp [Glossary.bind], reduces.mono more⟩
    · have before : (store.table table').lookup name' = some y := by
        by_cases here : table' = table
        · subst here
          rwa [if_pos rfl, lookup_append_other fun same' => same ⟨rfl, same'⟩] at found
        · rwa [if_neg here] at found
      obtain ⟨there, t', known, reduces⟩ := represents.bound table' name' y before
      exact ⟨there, t', more _ _ _ known, reduces.mono more⟩
  · intro table' name' found
    rw [Store.table_bindName inside] at found
    by_cases here : table' = table
    · subst here
      rw [if_pos rfl] at found
      have other : name' ≠ name := by
        rintro rfl
        rw [lookup_append_self missing] at found
        cases found
      rw [lookup_append_other other] at found
      rw [Glossary.bind, if_neg fun same => other same.2]
      exact represents.unbound table' name' found
    · rw [if_neg here] at found
      rw [Glossary.bind, if_neg fun same => here same.1]
      exact represents.unbound table' name' found

end Represents

/-! ### Growth -/

/-- **A store has evolved**, and still represents the terms that it did, with further ones. -/
structure Grows (defs : Glossary) (terms : Terms) (store : Store) (terms' : Terms)
    (store' : Store) : Prop where
  terms : terms <+: terms'
  represents : Represents defs terms' store'
  evolves : store.Evolves store'
  counts : store.Counts store'
  tables : store'.tables = store.tables

namespace Grows

variable {terms' terms'' : Terms} {store'' : Store}

theorem refl (represents : Represents defs terms store) : Grows defs terms store terms store :=
  ⟨List.prefix_refl terms, represents, .refl, .refl store, rfl⟩

theorem trans (first : Grows defs terms store terms' store')
    (second : Grows defs terms' store' terms'' store'') :
    Grows defs terms store terms'' store'' :=
  ⟨first.terms.trans second.terms, second.represents, first.evolves.trans second.evolves,
    first.counts.trans second.counts, second.tables.trans first.tables⟩

theorem of_eq (grows : Grows defs terms store terms' store')
    (represents : Represents defs terms store) (there : store.Has x) :
    terms'.of x = terms.of x :=
  Terms.of_of_isPrefix grows.terms (represents.covers there)

end Grows

end ByNeed
