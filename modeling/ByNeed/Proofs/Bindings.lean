/-
**Bindings stay.**

A name that is bound stays bound to its cell: computations add bindings and change none
(`Store.Augments`). So an environment that starts with the builtins has them ever after, each bound to
a cell that holds its value (`Store.HasBuiltins`), whatever else is defined in it.

* `load_augments`, `eval_augments`: definitions and evaluations augment a store;
* `Interpreter.hasBuiltins_reached`: **an interpreter has the builtins** after all calls.
-/

import ByNeed.Proofs.History
import ByNeed.Proofs.Progress

namespace ByNeed

open Reduction

namespace Store

variable {store later : Store} {env : TableId} {name : String} {x : CellId}

/-- **A store is augmented**: the later one has evolved from it and represents terms, and what was
bound is bound as it was. -/
structure Augments (store later : Store) : Prop where
  represented : later.Represented
  evolves : store.Evolves later
  bound : ∀ env name x, (store.table env).lookup name = some x →
    (later.table env).lookup name = some x

instance : Trans Augments Augments Augments where
  trans first second := ⟨second.represented, first.evolves.trans second.evolves,
    fun env name x found => second.bound env name x (first.bound env name x found)⟩

theorem Augments.of_tables (represented : later.Represented) (evolves : store.Evolves later)
    (same : later.tables = store.tables) : store.Augments later :=
  ⟨represented, evolves, fun env name x found => by rwa [table_congr same]⟩

theorem Augments.refl (represented : store.Represented) : store.Augments store :=
  .of_tables represented .refl rfl

/-- A new binding leaves the others as they are. -/
theorem Augments.bindName (represented : store.Represented)
    (unbound : (store.table env).lookup name = none) (there : store.Has x) :
    store.Augments (store.bindName env name x) := by
  refine ⟨bindName_represented represented unbound there, .aside .refl rfl rfl,
    fun env' name' y found => ?_⟩
  by_cases inside : env.index < store.tables.size
  · rw [table_bindName inside]
    by_cases same : env' = env
    · rw [same] at found
      rw [if_pos same, List.lookup_append, found]
      rfl
    · rwa [if_neg same]
  · rwa [table_bindName_outside inside]

end Store

open Store (Augments)

variable {defs : Glossary} {terms terms' : Terms} {store later : Store} {env : TableId}
  {x : CellId} {name : String}

theorem Built.augments (built : Built defs terms store terms' later) : store.Augments later :=
  .of_tables ⟨defs, terms', built.represents⟩ built.builds.evolves built.builds.tables_eq

theorem Grown.augments (grown : Grown defs terms store later) : store.Augments later := by
  obtain ⟨terms', grows⟩ := grown
  exact .of_tables ⟨defs, terms', grows.represents⟩ grows.evolves grows.tables

/-! ### Definitions and evaluations -/

theorem parse_augments (depth : Nat) (env : TableId) (code : String)
    (represented : store.Represented) :
    Moves Augments (Reader.parse depth env code) store fun x later => later.Has x := by
  obtain ⟨defs, terms, represents⟩ := represented
  refine (parse_ensures depth code represents).moves ?_ ?_
  · rintro x later ⟨terms', e, built, -, -, there, -⟩
    exact ⟨built.augments, there⟩
  · rintro failure later ⟨terms', built, -⟩
    exact built.augments

theorem define_augments (represented : store.Represented) (there : store.Has x) :
    Moves Augments (Environment.define env name x) store fun _ _ => True := by
  have ensures : (Environment.define env name x).Ensures store (fun _ later => store.Augments later)
      fun _ later => store.Augments later :=
    define_ensures (fun unbound => .bindName represented unbound there) fun _ _ =>
      .refl represented
  exact ensures.moves (fun _ _ augments => ⟨augments, trivial⟩) fun _ _ augments => augments

theorem load_augments (depth : Nat) (env : TableId) (code : String)
    (represented : store.Represented) :
    Moves Augments (Definitions.load depth env code) store fun _ _ => True := by
  have spec : LoadSpec Augments :=
    ⟨fun augments => .refl augments.represented, fun depth env code augments =>
      parse_augments depth env code augments.represented,
      fun augments there => define_augments augments.represented there⟩
  exact spec.load depth env code (.refl represented)

theorem eval_augments (depth : Nat) (env : TableId) (code : String)
    (represented : store.Represented) :
    Moves Augments (Interpreter.eval depth env code) store fun _ _ => True := by
  refine (parse_augments depth env code represented).bind fun x later augments there => ?_
  obtain ⟨defs, terms, represents⟩ := augments.represented
  exact (render_ensures depth represents there).moves
    (fun _ _ ended => ⟨ended.1.augments, trivial⟩) fun _ _ ended => ended.1.augments

/-! ### Builtins -/

/-- **An environment extends the builtins**: each of them is bound to a cell that holds its value. -/
def Store.HasBuiltins (store : Store) (env : TableId) : Prop :=
  ∀ item ∈ Builtins.all, ∃ x, (store.table env).lookup item.1 = some x ∧ store.Has x ∧
    store.cell x = .value item.2

theorem Store.HasBuiltins.augments (builtins : store.HasBuiltins env)
    (augments : store.Augments later) : later.HasBuiltins env := by
  intro item member
  obtain ⟨x, found, there, holds⟩ := builtins item member
  exact ⟨x, augments.bound env item.1 x found, augments.evolves.has there,
    augments.evolves.value there holds⟩

/-- The cells of a new interpreter are those of the builtins, in order. -/
theorem hasBuiltins_fresh : Interpreter.fresh.HasBuiltins Interpreter.home := by
  have each : ∀ i : Fin Builtins.all.length,
      (Interpreter.fresh.table Interpreter.home).lookup (Builtins.all.get i).1 = some ⟨i⟩ ∧
        i < Interpreter.fresh.cells.size ∧
        Interpreter.fresh.cell ⟨i⟩ = .value (Builtins.all.get i).2 := by
    decide +kernel
  intro item member
  obtain ⟨i, rfl⟩ := List.mem_iff_get.mp member
  exact ⟨⟨i⟩, each i⟩

namespace Interpreter

theorem call_augments (depth : Nat) (call : Call) (represented : store.Represented) :
    store.Augments (call.after depth store) := by
  cases call with
  | define text => exact (load_augments depth home text represented).after
  | eval text => exact (eval_augments depth home text represented).after

theorem hasBuiltins_reachedFrom (calls : List (Nat × Call)) (represented : store.Represented)
    (builtins : store.HasBuiltins home) : (reachedFrom store calls).HasBuiltins home := by
  induction calls generalizing store with
  | nil => exact builtins
  | cons next rest ih =>
    obtain ⟨depth, call⟩ := next
    have augments := call_augments depth call represented
    exact ih augments.represented (builtins.augments augments)

/-- **An interpreter has the builtins** after all calls, whatever they define. -/
theorem hasBuiltins_reached (calls : List (Nat × Call)) : (reached calls).HasBuiltins home := by
  obtain ⟨terms, knows⟩ := knows_fresh
  exact hasBuiltins_reachedFrom calls ⟨_, terms, knows.represents⟩ hasBuiltins_fresh

end Interpreter

end ByNeed
