/-
**Histories of an interpreter.**

An interpreter starts with the builtins and is called again and again, to define names or to
evaluate a text, and whatever a call did to the store stays, also when it failed. What its names
stand for are the builtins and the definitions that its calls have made.

* `Call`, `reached`: the calls, and the store that they lead to;
* `made`: the definitions made; of those in the text of a call, the first so many as the call bound
  names;
* `definitions`: what the names stand for;
* `eval_ensures`: what an evaluation answers, and how it fails;
* `knows_reached`: the store represents terms under these definitions;
* `names_reached`: the names bound are those of the builtins and of the definitions made.
-/

import ByNeed.Interpreter
import ByNeed.Proofs.Representation.Definitions
import ByNeed.Proofs.Representation.Traversal

namespace ByNeed.Interpreter

open Reduction

/-! ### Calls -/

/-- A call of an interpreter. -/
inductive Call
  /-- Carry out a batch of definitions. -/
  | define (text : String)
  /-- Answer the text of the tree of an expression. -/
  | eval (text : String)

/-- The environment of an interpreter. -/
def home : TableId := ⟨0⟩

/-- The store of a new interpreter, which has the builtins. -/
def fresh : Store :=
  Builtins.create.after Store.empty

/-- The store after a call, however it ended. -/
def Call.after (depth : Nat) (call : Call) (store : Store) : Store :=
  match call with
  | .define text => (Definitions.load depth home text).after store
  | .eval text => (Interpreter.eval depth home text).after store

/-- The store that calls lead to, each with the depth it may nest to. -/
def reachedFrom (store : Store) : List (Nat × Call) → Store
  | [] => store
  | (depth, call) :: rest => reachedFrom (call.after depth store) rest

/-- The store that calls of a new interpreter lead to. -/
def reached (calls : List (Nat × Call)) : Store :=
  reachedFrom fresh calls

/-! ### The definitions made -/

/-- The definitions that a call has made between two stores: of those in its text, the first so many
as names were bound. -/
def Call.made (call : Call) (before later : Store) : List (String × Expression) :=
  match call with
  | .define text =>
    (Definitions.entries text).take ((later.table home).length - (before.table home).length)
  | .eval _ => []

/-- The definitions that calls have made, in order. -/
def madeFrom (store : Store) : List (Nat × Call) → List (String × Expression)
  | [] => []
  | (depth, call) :: rest =>
    call.made store (call.after depth store) ++ madeFrom (call.after depth store) rest

/-- The definitions that calls of a new interpreter have made, in order. -/
def made (calls : List (Nat × Call)) : List (String × Expression) :=
  madeFrom fresh calls

/-- **What names stand for** after calls: the builtins, and the bodies of the definitions made. -/
def definitions (calls : List (Nat × Call)) : Glossary :=
  .ofEntries home (Builtins.entries ++ entered home (made calls))

/-! ### What is known after calls -/

variable {entries : List (String × Term)} {terms : Terms} {store : Store}

/-- The failure of an evaluation: an early one, or the text is misread, or the demands for the tree
of its expression end in a mistake. -/
def Refuses (defs : Glossary) (code : String) (failure : Failure) : Prop :=
  failure.isEarly = true ∨ Misread (lex code) failure ∨
    ∃ e reason, lex code = Expression.listing e ∧ (∀ token ∈ lex code, token.Readable) ∧
      failure = .fault reason ∧ (e.term home).ShowFails defs reason.category

/-- **An evaluation** adds no names; what it answers, and how it fails, is what the term of its
expression says. -/
theorem eval_ensures (depth : Nat) (code : String) (knows : Knows home entries terms store) :
    (Interpreter.eval depth home code).Ensures store
      (fun s later => (∃ terms', Knows home entries terms' later) ∧
        ∃ e tree, lex code = Expression.listing e ∧ (∀ token ∈ lex code, token.Readable) ∧
          (e.term home).Shows (.ofEntries home entries) tree ∧ tree.text = s)
      fun failure later => (∃ terms', Knows home entries terms' later) ∧
        Refuses (.ofEntries home entries) code failure := by
  refine (parse_ensures depth code knows.represents).bind ?_ ?_
  · rintro x store₁ ⟨terms₁, e, built, listed, readable, there, reduces⟩
    have known := knows.grows built.grows
    refine (render_ensures depth known.represents there).mono ?_ ?_
    · rintro s store₂ ⟨⟨terms₂, grows⟩, tree, shows, same⟩
      exact ⟨⟨terms₂, known.grows grows⟩, e, tree, listed, readable, shows.of_reduces reduces, same⟩
    · rintro failure store₂ ⟨⟨terms₂, grows⟩, early | ⟨reason, same, fails⟩⟩
      · exact ⟨⟨terms₂, known.grows grows⟩, Or.inl early⟩
      · exact ⟨⟨terms₂, known.grows grows⟩, Or.inr (Or.inr ⟨e, reason, listed, readable, same,
          fails.of_reduces reduces⟩)⟩
  · rintro failure store₁ ⟨terms₁, built, early | misread⟩
    · exact ⟨⟨terms₁, knows.grows built.grows⟩, Or.inl early⟩
    · exact ⟨⟨terms₁, knows.grows built.grows⟩, Or.inr (Or.inl misread)⟩

/-- The number of names that a batch has bound says which of its entries were made. -/
theorem take_bound {later : Store} {terms' : Terms} {all : List (String × Expression)} {k : Nat}
    (knows : Knows home entries terms store)
    (known : Knows home (entries ++ entered home (all.take k)) terms' later) :
    all.take ((later.table home).length - (store.table home).length) = all.take k := by
  have before := congrArg List.length knows.names
  have after := congrArg List.length known.names
  simp only [List.length_map, List.length_append, entered, List.length_take] at before after
  rw [before, after, Nat.add_sub_cancel_left, List.take_eq_take_iff]
  omega

theorem call_knows (depth : Nat) (call : Call) (knows : Knows home entries terms store) :
    ∃ terms', Knows home (entries ++ entered home (call.made store (call.after depth store))) terms'
      (call.after depth store) := by
  cases call with
  | eval text =>
    show ∃ terms', Knows home (entries ++ []) terms' ((Interpreter.eval depth home text).after store)
    rw [List.append_nil]
    exact (eval_ensures depth text knows).after _ (fun _ _ ended => ended.1) fun _ _ ended => ended.1
  | define text =>
    have loaded : ∃ terms' k, Knows home
        (entries ++ entered home ((Definitions.entries text).take k)) terms'
        (Call.after depth (.define text) store) := by
      refine (load_ensures depth text knows).after (fun later => ∃ terms' k, Knows home
        (entries ++ entered home ((Definitions.entries text).take k)) terms' later) ?_
        fun _ _ known => known
      rintro count later ⟨terms', known⟩
      exact ⟨terms', (Definitions.entries text).length, by rwa [List.take_length]⟩
    obtain ⟨terms', k, known⟩ := loaded
    refine ⟨terms', ?_⟩
    rw [Call.made, take_bound knows known]
    exact known

theorem knows_reachedFrom (calls : List (Nat × Call)) (knows : Knows home entries terms store) :
    ∃ terms', Knows home (entries ++ entered home (madeFrom store calls)) terms'
      (reachedFrom store calls) := by
  induction calls generalizing entries terms store with
  | nil => exact ⟨terms, by simpa [madeFrom, reachedFrom, entered] using knows⟩
  | cons next rest ih =>
    obtain ⟨depth, call⟩ := next
    obtain ⟨terms₁, known⟩ := call_knows depth call knows
    obtain ⟨terms₂, known⟩ := ih known
    exact ⟨terms₂, by simpa [madeFrom, reachedFrom, entered] using known⟩

theorem knows_fresh : ∃ terms, Knows home Builtins.entries terms fresh := by
  refine create_ensures.after (fun later => ∃ terms, Knows home Builtins.entries terms later) ?_
    fun _ _ never => never.elim
  rintro env store ⟨rfl, known⟩
  exact known

/-- **After calls the store represents terms** under the definitions made. -/
theorem knows_reached (calls : List (Nat × Call)) :
    ∃ terms, Knows home (Builtins.entries ++ entered home (made calls)) terms (reached calls) := by
  obtain ⟨terms, knows⟩ := knows_fresh
  exact knows_reachedFrom calls knows

/-- The names bound after calls are those of the builtins and of the definitions made. -/
theorem names_reached (calls : List (Nat × Call)) :
    ((reached calls).table home).map Prod.fst =
      Builtins.all.map Prod.fst ++ (made calls).map Prod.fst := by
  obtain ⟨terms, knows⟩ := knows_reached calls
  rw [knows.names, List.map_append]
  simp [Builtins.entries, bareTerms, entered, Function.comp_def]

end ByNeed.Interpreter
