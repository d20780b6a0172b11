/-
**How a store evolves.**

A computation adds cells and gives suspended cells their values, and does nothing else to the cells.
A store that comes from another in this way evolves from it (`Store.Evolves`); if no cell was given
a value it is built from it (`Store.Builds`).

* `Evolves.value`, `Evolves.suspended`: a value stays, and a suspension stays or becomes a value;
* `Turned`: a cell was suspended before and holds a value afterwards;
* `Recorded`: what the record of the changes says about the cells before and afterwards;
* `Evolves.recorded`: **the record is true**, and every cell on it was replaced once;
* `Counts`: the count of forced cells has grown by the number of cells replaced.
-/

import ByNeed.Store

namespace ByNeed

namespace Store

variable {store later last : Store} {x y : CellId} {c : Cell} {s : Suspension} {v : Value}

/-! ### Reading cells -/

/-- A suspended cell is there. -/
theorem has_of_suspended (suspended : store.cell x = .suspended s) : store.Has x := by
  by_cases there : x.index < store.cells.size
  · exact there
  · simp [cell, Array.getD, there] at suspended

/-- A place with no cell reads as the empty list. -/
theorem cell_of_not_has (outside : ¬ store.Has x) : store.cell x = .value .nil := by
  have outside : ¬ x.index < store.cells.size := outside
  simp [cell, Array.getD, outside]

theorem cell_congr (same : store.cells = later.cells) (x : CellId) :
    store.cell x = later.cell x := by
  unfold cell
  rw [same]

theorem table_congr (same : later.tables = store.tables) (env : TableId) :
    later.table env = store.table env := by
  unfold table
  rw [same]

theorem has_congr (same : store.cells = later.cells) : store.Has x ↔ later.Has x := by
  unfold Has
  rw [same]

theorem has_alloc_iff (store : Store) (c : Cell) :
    (store.alloc c).2.Has x ↔ store.Has x ∨ x = (store.alloc c).1 := by
  rcases x with ⟨i⟩
  simp only [Has, alloc, Array.size_push, CellId.mk.injEq]
  omega

theorem not_has_alloc (store : Store) (c : Cell) : ¬ store.Has (store.alloc c).1 :=
  Nat.lt_irrefl _

theorem has_alloc (store : Store) (c : Cell) : (store.alloc c).2.Has (store.alloc c).1 :=
  (has_alloc_iff store c).mpr (Or.inr rfl)

theorem cell_alloc_self (store : Store) (c : Cell) :
    (store.alloc c).2.cell (store.alloc c).1 = c := by
  rw [cell_alloc, if_pos rfl]

theorem cell_alloc_of_has (there : store.Has x) (c : Cell) :
    (store.alloc c).2.cell x = store.cell x := by
  rw [cell_alloc, if_neg]
  rintro rfl
  exact not_has_alloc store c there

theorem has_commit_iff (store : Store) (y : CellId) (v : Value) :
    (store.commit y v).Has x ↔ store.Has x := by
  simp [Has, commit]

/-! ### Evolution -/

/-- **A store evolves from another**: cells were added, and suspensions were replaced by values. -/
inductive Evolves (store : Store) : Store → Prop
  | refl : Evolves store store
  | alloc {later : Store} (c : Cell) : Evolves store later → Evolves store (later.alloc c).2
  | commit {later : Store} {x : CellId} {s : Suspension} (v : Value) : Evolves store later →
      later.cell x = .suspended s → Evolves store (later.commit x v)
  /-- Tables, traces and counts may change. -/
  | aside {later last : Store} : Evolves store later → last.cells = later.cells →
      last.changes = later.changes → Evolves store last

/-- **A store is built from another**: cells were added. -/
inductive Builds (store : Store) : Store → Prop
  | refl : Builds store store
  | alloc {later : Store} (c : Cell) : Builds store later → Builds store (later.alloc c).2

theorem Evolves.trans (first : store.Evolves later) (second : later.Evolves last) :
    store.Evolves last := by
  induction second with
  | refl => exact first
  | alloc c _ ih => exact .alloc c ih
  | commit v _ suspended ih => exact .commit v ih suspended
  | aside _ cells changes ih => exact .aside ih cells changes

theorem Builds.trans (first : store.Builds later) (second : later.Builds last) :
    store.Builds last := by
  induction second with
  | refl => exact first
  | alloc c _ ih => exact .alloc c ih

theorem Builds.evolves (builds : store.Builds later) : store.Evolves later := by
  induction builds with
  | refl => exact .refl
  | alloc c _ ih => exact .alloc c ih

theorem Evolves.has (evolves : store.Evolves later) (there : store.Has x) : later.Has x := by
  induction evolves with
  | refl => exact there
  | alloc c _ ih => exact (has_alloc_iff _ c).mpr (Or.inl ih)
  | commit v _ _ ih => exact (has_commit_iff _ _ v).mpr ih
  | aside _ cells _ ih => exact (has_congr cells).mpr ih

theorem Builds.cell_eq (builds : store.Builds later) (there : store.Has x) :
    later.cell x = store.cell x := by
  induction builds with
  | refl => rfl
  | alloc c builds ih => rw [cell_alloc_of_has (builds.evolves.has there), ih]

theorem Builds.tables_eq (builds : store.Builds later) : later.tables = store.tables := by
  induction builds with
  | refl => rfl
  | alloc c _ ih => exact ih

/-- **A cell that holds a value keeps it.** -/
theorem Evolves.value (evolves : store.Evolves later) (there : store.Has x)
    (holds : store.cell x = .value v) : later.cell x = .value v := by
  induction evolves with
  | refl => exact holds
  | alloc c evolves ih => rw [cell_alloc_of_has (evolves.has there), ih]
  | @commit later y s w _ suspended ih =>
    have other : x ≠ y := by
      rintro rfl
      rw [ih] at suspended
      cases suspended
    rw [cell_commit (has_of_suspended suspended), if_neg other, ih]
  | aside _ cells _ ih => rw [cell_congr cells, ih]

/-- A suspended cell keeps its suspension or is given a value. -/
theorem Evolves.suspended (evolves : store.Evolves later) (suspended : store.cell x = .suspended s) :
    later.cell x = .suspended s ∨ ∃ v, later.cell x = .value v := by
  induction evolves with
  | refl => exact Or.inl suspended
  | alloc c evolves ih =>
    rw [cell_alloc_of_has (evolves.has (has_of_suspended suspended))]
    exact ih
  | @commit later y s' w _ there ih =>
    rw [cell_commit (has_of_suspended there)]
    by_cases same : x = y
    · rw [if_pos same]
      exact Or.inr ⟨w, rfl⟩
    · rw [if_neg same]
      exact ih
  | aside _ cells _ ih =>
    rw [cell_congr cells]
    exact ih

/-- **A cell was given its value** between two stores. -/
def Turned (store later : Store) (x : CellId) : Prop :=
  (∃ s, store.cell x = .suspended s) ∧ ∃ v, later.cell x = .value v

/-- A cell was given its value before or after any moment in between. -/
theorem Turned.split (evolves : store.Evolves later) (turned : store.Turned last x) :
    store.Turned later x ∨ later.Turned last x := by
  obtain ⟨⟨s, suspended⟩, holds⟩ := turned
  rcases evolves.suspended suspended with still | value
  · exact Or.inr ⟨⟨s, still⟩, holds⟩
  · exact Or.inl ⟨⟨s, suspended⟩, value⟩

theorem Builds.not_turned (builds : store.Builds later) : ¬ store.Turned later x := by
  rintro ⟨⟨s, suspended⟩, v, holds⟩
  rw [builds.cell_eq (has_of_suspended suspended), suspended] at holds
  cases holds

/-- **A store goes beyond another**: it has the same cells and more, and the same tables. -/
structure Extended (store later : Store) : Prop where
  le : store.cells.size ≤ later.cells.size
  kept : ∀ x, store.Has x → later.cell x = store.cell x
  tables : later.tables = store.tables

theorem Extended.refl (store : Store) : store.Extended store :=
  ⟨Nat.le_refl _, fun _ _ => rfl, rfl⟩

theorem Extended.has (extended : store.Extended later) (there : store.Has x) : later.Has x :=
  Nat.lt_of_lt_of_le there extended.le

theorem Extended.trans (first : store.Extended later) (second : later.Extended last) :
    store.Extended last :=
  ⟨Nat.le_trans first.le second.le,
    fun x there => (second.kept x (first.has there)).trans (first.kept x there),
    second.tables.trans first.tables⟩

/-- A cell that has not been given its value is as it was. -/
theorem Evolves.cell_of_not_turned (evolves : store.Evolves later) (there : store.Has x)
    (kept : ¬ store.Turned later x) : later.cell x = store.cell x := by
  cases holds : store.cell x with
  | value v => exact evolves.value there holds
  | suspended s =>
    rcases evolves.suspended holds with still | value
    · exact still
    · exact (kept ⟨⟨s, holds⟩, value⟩).elim

end Store

/-! ### The record of changes -/

/-- The cells whose suspensions were replaced, the latest first. -/
def replacedCells : List Change → List CellId
  | [] => []
  | .added _ _ :: rest => replacedCells rest
  | .replaced x _ :: rest => x :: replacedCells rest

theorem replacedCells_append (first second : List Change) :
    replacedCells (first ++ second) = replacedCells first ++ replacedCells second := by
  induction first with
  | nil => rfl
  | cons change rest ih =>
    cases change with
    | added x c => exact ih
    | replaced x v => exact congrArg (x :: ·) ih

theorem mem_replacedCells {made : List Change} {x : CellId} :
    x ∈ replacedCells made ↔ ∃ v, .replaced x v ∈ made := by
  induction made with
  | nil => simp [replacedCells]
  | cons change rest ih =>
    cases change with
    | added y c => simp [replacedCells, ih]
    | replaced y w => simp [replacedCells, ih, exists_or]

namespace Store

variable {store later last : Store} {x y : CellId} {c : Cell} {s : Suspension} {v : Value}

/-- A cell was suspended before, or was suspended when it was added. -/
def WasSuspended (store : Store) (made : List Change) (x : CellId) : Prop :=
  (∃ s, store.cell x = .suspended s) ∨ ∃ s, Change.added x (.suspended s) ∈ made

/-- **What the changes made between two stores say about the cells.** -/
structure Recorded (store : Store) (made : List Change) (later : Store) : Prop where
  /-- No cell is replaced twice. -/
  nodup : (replacedCells made).Nodup
  /-- Only a suspension is replaced. -/
  wasSuspended : ∀ x ∈ replacedCells made, store.WasSuspended made x
  /-- What is replaced holds the value that it was given. -/
  holds : ∀ x v, .replaced x v ∈ made → later.cell x = .value v
  /-- What is added with a value holds it. -/
  given : ∀ x v, .added x (.value v) ∈ made → later.cell x = .value v
  /-- What is not replaced is as it was. -/
  kept : ∀ x, store.Has x → x ∉ replacedCells made → later.cell x = store.cell x
  /-- What is added and not replaced is as it was added. -/
  added : ∀ x c, .added x c ∈ made → x ∉ replacedCells made → later.cell x = c
  /-- The cells that are new were added. -/
  new : ∀ x, ¬ store.Has x → later.Has x → ∃ c, .added x c ∈ made
  /-- The cells that were added are there. -/
  there : ∀ x c, .added x c ∈ made → later.Has x

theorem Recorded.refl (store : Store) : store.Recorded [] store where
  nodup := List.nodup_nil
  wasSuspended _ member := nomatch member
  holds _ _ member := nomatch member
  given _ _ member := nomatch member
  kept _ _ _ := rfl
  added _ _ member := nomatch member
  new _ outside inside := absurd inside outside
  there _ _ member := nomatch member

theorem Recorded.alloc {made : List Change} (recorded : store.Recorded made later)
    (evolves : store.Evolves later) (c : Cell) :
    store.Recorded (.added (later.alloc c).1 c :: made) (later.alloc c).2 where
  nodup := recorded.nodup
  wasSuspended x member := by
    rcases recorded.wasSuspended x member with before | ⟨s, found⟩
    · exact Or.inl before
    · exact Or.inr ⟨s, List.mem_cons_of_mem _ found⟩
  holds x v member := by
    have replaced : .replaced x v ∈ made := by
      rcases List.mem_cons.mp member with other | member
      · cases other
      · exact member
    have inside : later.Has x := by
      rcases recorded.wasSuspended x (mem_replacedCells.mpr ⟨v, replaced⟩) with
        ⟨s, suspended⟩ | ⟨s, found⟩
      · exact evolves.has (has_of_suspended suspended)
      · exact recorded.there x _ found
    rw [cell_alloc_of_has inside]
    exact recorded.holds x v replaced
  given x v member := by
    rcases List.mem_cons.mp member with same | member
    · cases same
      exact cell_alloc_self later _
    · rw [cell_alloc_of_has (recorded.there x _ member)]
      exact recorded.given x v member
  kept x there notReplaced := by
    rw [cell_alloc_of_has (evolves.has there)]
    exact recorded.kept x there notReplaced
  added x c' member notReplaced := by
    rcases List.mem_cons.mp member with same | member
    · cases same
      exact cell_alloc_self later c
    · rw [cell_alloc_of_has (recorded.there x c' member)]
      exact recorded.added x c' member notReplaced
  new x outside inside := by
    rcases (has_alloc_iff later c).mp inside with inside | rfl
    · obtain ⟨c', member⟩ := recorded.new x outside inside
      exact ⟨c', List.mem_cons_of_mem _ member⟩
    · exact ⟨c, List.mem_cons_self⟩
  there x c' member := by
    rcases List.mem_cons.mp member with same | member
    · cases same
      exact has_alloc later c
    · exact (has_alloc_iff later c).mpr (Or.inl (recorded.there x c' member))

theorem Recorded.commit {made : List Change} (recorded : store.Recorded made later)
    (suspended : later.cell x = .suspended s) (v : Value) :
    store.Recorded (.replaced x v :: made) (later.commit x v) := by
  have inside : later.Has x := has_of_suspended suspended
  -- A cell on the record holds a value, so the one that is replaced now is not on it yet.
  have fresh : x ∉ replacedCells made := by
    intro member
    obtain ⟨w, replaced⟩ := mem_replacedCells.mp member
    have holds := recorded.holds x w replaced
    rw [suspended] at holds
    cases holds
  have elsewhere : ∀ y, y ≠ x → (later.commit x v).cell y = later.cell y := by
    intro y other
    rw [cell_commit inside, if_neg other]
  refine ⟨?_, ?_, ?_, ?_, ?_, ?_, ?_, ?_⟩
  · exact List.nodup_cons.mpr ⟨fresh, recorded.nodup⟩
  · intro y member
    have old : store.WasSuspended made y := by
      rcases List.mem_cons.mp member with rfl | member
      · by_cases before : store.Has y
        · exact Or.inl ⟨s, by rw [← recorded.kept y before fresh, suspended]⟩
        · obtain ⟨c, found⟩ := recorded.new y before inside
          have content := recorded.added y c found fresh
          rw [suspended] at content
          exact Or.inr ⟨s, content ▸ found⟩
      · exact recorded.wasSuspended y member
    rcases old with before | ⟨s', found⟩
    · exact Or.inl before
    · exact Or.inr ⟨s', List.mem_cons_of_mem _ found⟩
  · intro y w member
    rcases List.mem_cons.mp member with same | member
    · cases same
      rw [cell_commit inside, if_pos rfl]
    · rw [elsewhere y fun same => fresh (same ▸ mem_replacedCells.mpr ⟨w, member⟩)]
      exact recorded.holds y w member
  · intro y w member
    have holds : later.cell y = .value w := by
      rcases List.mem_cons.mp member with other | member
      · cases other
      · exact recorded.given y w member
    rw [elsewhere y, holds]
    rintro rfl
    rw [suspended] at holds
    cases holds
  · intro y there notReplaced
    rw [elsewhere y fun same => notReplaced (same ▸ List.mem_cons_self)]
    exact recorded.kept y there fun member => notReplaced (List.mem_cons_of_mem _ member)
  · intro y c member notReplaced
    rw [elsewhere y fun same => notReplaced (same ▸ List.mem_cons_self)]
    rcases List.mem_cons.mp member with same | member
    · cases same
    · exact recorded.added y c member fun again => notReplaced (List.mem_cons_of_mem _ again)
  · intro y outside inside
    obtain ⟨c, member⟩ := recorded.new y outside ((has_commit_iff later x v).mp inside)
    exact ⟨c, List.mem_cons_of_mem _ member⟩
  · intro y c member
    rcases List.mem_cons.mp member with same | member
    · cases same
    · exact (has_commit_iff later x v).mpr (recorded.there y c member)

theorem Recorded.congr {made : List Change} (recorded : store.Recorded made later)
    (cells : last.cells = later.cells) : store.Recorded made last where
  nodup := recorded.nodup
  wasSuspended := recorded.wasSuspended
  holds x v member := by
    rw [cell_congr cells]
    exact recorded.holds x v member
  given x v member := by
    rw [cell_congr cells]
    exact recorded.given x v member
  kept x there notReplaced := by
    rw [cell_congr cells]
    exact recorded.kept x there notReplaced
  added x c member notReplaced := by
    rw [cell_congr cells]
    exact recorded.added x c member notReplaced
  new x outside inside := recorded.new x outside ((has_congr cells).mp inside)
  there x c member := (has_congr cells).mpr (recorded.there x c member)

/-- **The record of changes is true**: what was put on it since says what happened to the cells. -/
theorem Evolves.recorded (evolves : store.Evolves later) :
    ∃ made, later.changes = made ++ store.changes ∧ store.Recorded made later := by
  induction evolves with
  | refl => exact ⟨[], rfl, .refl store⟩
  | @alloc later c evolves ih =>
    obtain ⟨made, changes, recorded⟩ := ih
    refine ⟨.added (later.alloc c).1 c :: made, ?_, recorded.alloc evolves c⟩
    show _ :: later.changes = _
    rw [changes]
    rfl
  | @commit later x s v _ suspended ih =>
    obtain ⟨made, changes, recorded⟩ := ih
    refine ⟨.replaced x v :: made, ?_, recorded.commit suspended v⟩
    show _ :: later.changes = _
    rw [changes, List.cons_append]
  | aside _ cells changes ih =>
    obtain ⟨made, made_eq, recorded⟩ := ih
    exact ⟨made, changes.trans made_eq, recorded.congr cells⟩

/-- A cell that was added is new. -/
theorem Evolves.added_new {made : List Change} (evolves : store.Evolves later)
    (changes : later.changes = made ++ store.changes) (added : .added x c ∈ made) :
    ¬ store.Has x := by
  induction evolves generalizing made with
  | refl =>
    obtain rfl : made = [] := List.self_eq_append_left.mp changes
    cases added
  | @alloc later c' evolves ih =>
    obtain ⟨made', changes', -⟩ := evolves.recorded
    have same : made = .added (later.alloc c').1 c' :: made' := by
      refine List.append_cancel_right (changes.symm.trans ?_)
      show _ :: later.changes = _
      rw [changes']
      rfl
    rw [same] at added
    rcases List.mem_cons.mp added with new | added
    · cases new
      exact fun there => not_has_alloc later _ (evolves.has there)
    · exact ih changes' added
  | @commit later y s v evolves suspended ih =>
    obtain ⟨made', changes', -⟩ := evolves.recorded
    have same : made = .replaced y v :: made' := by
      refine List.append_cancel_right (changes.symm.trans ?_)
      show _ :: later.changes = _
      rw [changes']
      rfl
    rw [same] at added
    rcases List.mem_cons.mp added with other | added
    · cases other
    · exact ih changes' added
  | aside _ _ changes' ih => exact ih (changes'.symm.trans changes) added

/-- A cell that was there and is as it was has not been replaced. -/
theorem Evolves.not_replaced {made : List Change} (evolves : store.Evolves later)
    (changes : later.changes = made ++ store.changes) (there : store.Has x)
    (kept : later.cell x = store.cell x) : x ∉ replacedCells made := by
  obtain ⟨made', changes', recorded⟩ := evolves.recorded
  obtain rfl : made' = made := List.append_cancel_right (changes'.symm.trans changes)
  intro member
  obtain ⟨v, replaced⟩ := mem_replacedCells.mp member
  rcases recorded.wasSuspended x member with ⟨s, suspended⟩ | ⟨s, added⟩
  · have holds := recorded.holds x v replaced
    rw [kept, suspended] at holds
    cases holds
  · exact evolves.added_new changes added there

/-- A cell is replaced exactly if it was suspended and holds a value now. -/
theorem Recorded.mem_replaced_iff {made : List Change} (recorded : store.Recorded made later) :
    x ∈ replacedCells made ↔ store.WasSuspended made x ∧ ∃ v, later.cell x = .value v := by
  constructor
  · intro member
    obtain ⟨v, replaced⟩ := mem_replacedCells.mp member
    exact ⟨recorded.wasSuspended x member, v, recorded.holds x v replaced⟩
  rintro ⟨was, v, holds⟩
  by_cases replaced : x ∈ replacedCells made
  · exact replaced
  · rcases was with ⟨s, suspended⟩ | ⟨s, found⟩
    · rw [recorded.kept x (has_of_suspended suspended) replaced, suspended] at holds
      cases holds
    · rw [recorded.added x _ found replaced] at holds
      cases holds

/-! ### The count -/

/-- **The count of forced cells has grown by the number of cells replaced.** -/
def Counts (store later : Store) : Prop :=
  ∃ made, later.changes = made ++ store.changes ∧
    later.forced = store.forced + (replacedCells made).length

theorem Counts.refl (store : Store) : store.Counts store :=
  ⟨[], rfl, rfl⟩

theorem Counts.trans (first : store.Counts later) (second : later.Counts last) :
    store.Counts last := by
  obtain ⟨made, changes, forced⟩ := first
  obtain ⟨more, changes', forced'⟩ := second
  refine ⟨more ++ made, by rw [changes', changes, List.append_assoc], ?_⟩
  rw [forced', forced, replacedCells_append, List.length_append]
  omega

theorem Counts.commit (counts : store.Counts later) (x : CellId) (v : Value) :
    store.Counts (later.commit x v) :=
  counts.trans ⟨[.replaced x v], rfl, rfl⟩

theorem Builds.counts (builds : store.Builds later) : store.Counts later := by
  induction builds with
  | refl => exact .refl store
  | alloc c _ ih => exact ih.trans ⟨[.added _ c], rfl, rfl⟩

theorem Builds.forced_eq (builds : store.Builds later) : later.forced = store.forced := by
  induction builds with
  | refl => rfl
  | alloc c _ ih => exact ih

end Store

end ByNeed
