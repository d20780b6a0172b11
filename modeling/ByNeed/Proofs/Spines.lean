/-
**The spine of a list, and its tree.**

Two loops go down a spine. The one answers the elements of a list and forces none of them, the other
collects their trees, and decides only at the end whether they make a list or nested pairs. They
agree on every spine: what the tree of a cell has forced is all that a walk needs, and the elements
that a walk answers are all that is missing for the tree.

* `Tree.Canonical`: no pair in a tree has a list for its second half;
* `Store.Spine`: the elements between a cell and another one down its spine;
* `Store.holds_foldr_iff`: **a cell holds a list of data if its spine and its elements are forced**;
* `elementsWith_of_spine`, `elementsWith_spine`: a walk along a forced spine, and the spine that a
  walk has forced;
* `materialize_canonical`: **the tree of a cell is the canonical tree of its data**;
* `elements_agree`: **the walk and the tree agree**, whichever of them comes first.
-/

import ByNeed.Proofs.DisplayText
import Mathlib.Data.List.Forall2

namespace ByNeed

/-! ### Canonical trees -/

namespace Tree

/-- A tree is part of another one, which may be the tree itself. -/
inductive Within : Tree → Tree → Prop
  | self (tree : Tree) : Within tree tree
  | elem {part tree : Tree} {elems : List Tree} : tree ∈ elems → Within part tree →
      Within part (.list elems)
  | first {part first second : Tree} : Within part first → Within part (.pair first second)
  | second {part first second : Tree} : Within part second → Within part (.pair first second)

/-- **No pair in a tree has a list for its second half**, at any depth. -/
def Canonical (tree : Tree) : Prop :=
  ∀ first second elems, Within (.pair first second) tree → second ≠ .list elems

theorem canonical_num (n : Int) : Canonical (.num n) := fun _ _ _ within => nomatch within

theorem canonical_list {trees : List Tree} (each : ∀ tree ∈ trees, tree.Canonical) :
    Canonical (.list trees) := by
  intro first second elems within
  cases within with
  | elem member within => exact each _ member first second elems within

theorem canonical_pair {first second : Tree} (front : first.Canonical) (back : second.Canonical)
    (other : ∀ elems, second ≠ .list elems) : Canonical (.pair first second) := by
  intro first' second' elems within
  cases within with
  | self => exact other elems
  | first within => exact front first' second' elems within
  | second within => exact back first' second' elems within

/-- The elements of a canonical list are canonical. -/
theorem Canonical.elem {tree : Tree} {trees : List Tree} (canonical : Canonical (.list trees))
    (member : tree ∈ trees) : tree.Canonical :=
  fun first second elems within => canonical first second elems (.elem member within)

theorem canonical_prepend {first rest : Tree} (front : first.Canonical) (back : rest.Canonical) :
    (first.prepend rest).Canonical := by
  cases rest with
  | num n => exact canonical_pair front back fun elems => Tree.noConfusion
  | pair head tail => exact canonical_pair front back fun elems => Tree.noConfusion
  | list trees =>
    refine canonical_list fun tree member => ?_
    rcases List.mem_cons.mp member with rfl | member
    · exact front
    · exact back.elem member

/-- The number at the end of a chain of pairs, if it ends in one. -/
def ending? : Tree → Option Int
  | .num n => some n
  | .list _ => none
  | .pair _ second => second.ending?

theorem ending?_prepend (first rest : Tree) : (first.prepend rest).ending? = rest.ending? := by
  cases rest <;> rfl

end Tree

/-! ### Spines of data -/

namespace Datum

variable {first : Datum} {data : List Datum} {depth : Nat}

theorem canonical_tree (datum : Datum) : datum.tree.Canonical := by
  induction datum with
  | num n => exact Tree.canonical_num n
  | nil => exact Tree.canonical_list fun _ member => nomatch member
  | pair first second front back => exact Tree.canonical_prepend front back

/-- Data is a spine of elements that ends in the empty list or in a number. -/
theorem exists_spine (datum : Datum) :
    ∃ data : List Datum, datum = data.foldr .pair .nil ∨ ∃ n, datum = data.foldr .pair (.num n) := by
  induction datum with
  | num n => exact ⟨[], .inr ⟨n, rfl⟩⟩
  | nil => exact ⟨[], .inl rfl⟩
  | pair first second _ ih =>
    obtain ⟨data, rfl | ⟨n, rfl⟩⟩ := ih
    · exact ⟨first :: data, .inl rfl⟩
    · exact ⟨first :: data, .inr ⟨n, rfl⟩⟩

theorem tree_foldr_nil (data : List Datum) : (data.foldr pair nil).tree = .list (data.map tree) := by
  induction data with
  | nil => rfl
  | cons first data ih => rw [List.foldr_cons, tree, ih, Tree.prepend, List.map_cons]

theorem ending?_tree_foldr (data : List Datum) (rest : Datum) :
    (data.foldr pair rest).tree.ending? = rest.tree.ending? := by
  induction data with
  | nil => rfl
  | cons first data ih => rw [List.foldr_cons, tree, Tree.ending?_prepend, ih]

theorem length_foldr (data : List Datum) (rest : Datum) :
    (data.foldr pair rest).length = data.length + rest.length := by
  induction data with
  | nil => exact (Nat.zero_add _).symm
  | cons first data ih =>
    rw [List.foldr_cons, length, ih, List.length_cons]
    omega

theorem rank_lt_rank_foldr (rest : Datum) (member : first ∈ data) :
    first.rank < (data.foldr pair rest).rank := by
  induction data with
  | nil => cases member
  | cons other data ih =>
    simp only [List.foldr_cons, rank]
    rcases List.mem_cons.mp member with rfl | member
    · omega
    · have below := ih member
      omega

theorem rank_foldr_nil_le (short : ∀ datum ∈ data, datum.rank ≤ depth) :
    (data.foldr pair nil).rank ≤ max data.length depth + 1 := by
  induction data with
  | nil => exact Nat.le_add_left _ _
  | cons first data ih =>
    have head := short first List.mem_cons_self
    have tail := ih fun datum member => short datum (List.mem_cons_of_mem _ member)
    have spine : (data.foldr pair nil).length = data.length := length_foldr data nil
    simp only [List.foldr_cons, List.length_cons, rank]
    omega

end Datum

/-! ### Spines in the store -/

variable {store later : Store} {x y : CellId} {cells : List CellId} {data : List Datum}
  {datum : Datum} {depth : Nat}

/-- **The elements between a cell and another one down its spine**, which is forced up to there. -/
inductive Store.Spine (store : Store) : CellId → List CellId → CellId → Prop
  | here {x : CellId} : Spine store x [] x
  | next {x head tail y : CellId} {cells : List CellId} : store.Has x →
      store.cell x = .value (.pair head tail) → Spine store tail cells y →
      Spine store x (head :: cells) y

theorem Store.Spine.mono (spine : store.Spine x cells y) (evolves : store.Evolves later) :
    later.Spine x cells y := by
  induction spine with
  | here => exact .here
  | next there value _ ih => exact .next (evolves.has there) (evolves.value there value) ih

/-- A cell holds one datum at most. -/
theorem Store.Holds.unique {other : Datum} (holds : store.Holds x datum)
    (holds' : store.Holds x other) : other = datum := by
  induction holds generalizing other with
  | num there value =>
    cases holds' <;> simp_all
  | nil there value =>
    cases holds' <;> simp_all
  | pair there value _ _ ihHead ihTail =>
    cases holds' with
    | num _ value' => simp_all
    | nil _ value' => simp_all
    | pair _ value' holdsHead holdsTail =>
      rw [value] at value'
      cases value'
      rw [ihHead holdsHead, ihTail holdsTail]

/-- **A cell holds elements and what follows them** if its spine leads to a cell that holds the
latter, past cells that hold the former. -/
theorem Store.holds_foldr_iff {rest : Datum} :
    store.Holds x (data.foldr .pair rest) ↔ ∃ cells y, store.Spine x cells y ∧
      List.Forall₂ store.Holds cells data ∧ store.Holds y rest := by
  induction data generalizing x with
  | nil =>
    constructor
    · exact fun holds => ⟨[], x, .here, .nil, holds⟩
    · rintro ⟨cells, y, spine, ⟨⟩, holds⟩
      cases spine
      exact holds
  | cons first data ih =>
    constructor
    · intro holds
      cases holds with
      | pair there value holdsHead holdsTail =>
        obtain ⟨cells, y, spine, all, holds⟩ := ih.mp holdsTail
        exact ⟨_, y, .next there value spine, .cons holdsHead all, holds⟩
    · rintro ⟨cells, y, spine, all, holds⟩
      cases all with
      | cons holdsHead all =>
        cases spine with
        | next there value spine =>
          exact .pair there value holdsHead (ih.mpr ⟨_, y, spine, all, holds⟩)

/-! ### Walking a spine -/

/-- **A walk goes along a forced spine** without a change to the store, and keeps the elements. -/
theorem elementsWith_of_spine (spine : store.Spine x cells y) (depth rounds : Nat)
    (found : List CellId) :
    elementsWith (force depth) (cells.length + rounds) found x store =
      elementsWith (force depth) rounds (cells.reverse ++ found) y store := by
  induction spine generalizing found with
  | here => rw [List.length_nil, Nat.zero_add, List.reverse_nil, List.nil_append]
  | next there value _ ih =>
    rw [List.length_cons, Nat.add_right_comm, elementsWith, bind_of_ok (force_of_value value _)]
    simp only
    rw [ih, List.reverse_cons, List.append_assoc]
    rfl

/-- A walk along a spine that ends in the empty list answers the elements. -/
theorem elements_of_nil (spine : store.Spine x cells y) (ends : store.Holds y .nil)
    (long : cells.length < depth) : elements depth x store = .ok cells store := by
  obtain ⟨rest, rfl⟩ := Nat.exists_eq_add_of_lt long
  cases ends with
  | nil there value =>
    rw [elements, Nat.add_assoc, elementsWith_of_spine spine, elementsWith,
      bind_of_ok (force_of_value value _)]
    show EStateM.Result.ok _ store = _
    rw [List.append_nil, List.reverse_reverse]

/-- A walk along a spine that ends in a number fails, and shows the number. -/
theorem elements_of_num {n : Int} (spine : store.Spine x cells y) (ends : store.Holds y (.num n))
    (long : cells.length < depth) :
    elements depth x store = Eval.faultShowing .listEndsInNumber n store := by
  obtain ⟨rest, rfl⟩ := Nat.exists_eq_add_of_lt long
  cases ends with
  | num there value =>
    rw [elements, Nat.add_assoc, elementsWith_of_spine spine, elementsWith,
      bind_of_ok (force_of_value value _)]

/-- What the rounds of a walk have forced is a spine that ends in the empty list. -/
theorem elementsWith_spine (depth : Nat) {rounds : Nat} {found all : List CellId}
    (represented : store.Represented) (there : store.Has x)
    (answered : elementsWith (force depth) rounds found x store = .ok all later) :
    store.Progress later ∧ ∃ cells y, later.Spine x cells y ∧ later.Holds y .nil ∧
      all = found.reverse ++ cells ∧ cells.length < rounds ∧ ∀ cell ∈ cells, later.Has cell := by
  induction rounds generalizing store later x found with
  | zero => cases answered
  | succ rounds ih =>
    obtain ⟨v, store₁, forced, answered⟩ := bind_eq_ok answered
    obtain ⟨progress₁, parts⟩ := (force_progress depth represented there).ok v store₁ forced
    have value := force_stores represented there forced
    have there₁ := progress₁.evolves.has there
    cases v with
    | num n =>
      simp only [Eval.faultShowing] at answered
      split at answered <;> cases answered
    | func f => cases answered
    | nil =>
      cases answered
      exact ⟨progress₁, [], x, .here, .nil there₁ value, (List.append_nil _).symm,
        Nat.succ_pos rounds, fun _ member => nomatch member⟩
    | pair head tail =>
      have thereHead := parts head (by simp [Value.cells])
      have thereTail := parts tail (by simp [Value.cells])
      obtain ⟨progress₂, cells, y, spine, ends, rfl, short, inside⟩ :=
        ih progress₁.represented thereTail answered
      have evolves := progress₂.evolves
      refine ⟨Trans.trans progress₁ progress₂, head :: cells, y,
        .next (evolves.has there₁) (evolves.value there₁ value) spine, ends, ?_,
        Nat.succ_lt_succ short, ?_⟩
      · rw [List.reverse_cons, List.append_assoc]
        rfl
      · intro cell member
        rcases List.mem_cons.mp member with rfl | member
        · exact evolves.has thereHead
        · exact inside cell member

/-- **What a walk has forced** is a spine that ends in the empty list. -/
theorem elements_spine (represented : store.Represented) (there : store.Has x)
    (answered : elements depth x store = .ok cells later) :
    store.Progress later ∧ ∃ y, later.Spine x cells y ∧ later.Holds y .nil ∧
      cells.length < depth ∧ ∀ cell ∈ cells, later.Has cell := by
  cases depth with
  | zero => cases answered
  | succ depth =>
    obtain ⟨progress, cells, y, spine, ends, rfl, short, inside⟩ :=
      elementsWith_spine depth represented there answered
    exact ⟨progress, y, spine, ends, short, inside⟩

/-- Cells whose trees are found one after the other hold data when the last is found. -/
theorem mapM_materialize_holds {trees : List Tree} (represented : store.Represented)
    (inside : ∀ cell ∈ cells, store.Has cell)
    (answered : cells.mapM (materialize depth) store = .ok trees later) :
    store.Progress later ∧ ∃ data : List Datum, List.Forall₂ later.Holds cells data ∧
      trees = data.map Datum.tree ∧ ∀ datum ∈ data, datum.rank ≤ depth := by
  induction cells generalizing store trees with
  | nil =>
    cases answered
    exact ⟨(Store.Quiet.refl represented).toProgress, [], .nil, rfl, fun _ member => nomatch member⟩
  | cons cell cells ih =>
    rw [List.mapM_cons] at answered
    obtain ⟨tree, store₁, found, answered⟩ := bind_eq_ok answered
    obtain ⟨others, store₂, founds, answered⟩ := bind_eq_ok answered
    cases answered
    obtain ⟨datum, rfl, progress₁, holds, deep, -⟩ :=
      materialize_found depth represented (inside cell List.mem_cons_self) found
    obtain ⟨progress₂, data, all, rfl, short⟩ := ih progress₁.represented
      (fun other member => progress₁.evolves.has (inside other (List.mem_cons_of_mem _ member)))
      founds
    refine ⟨Trans.trans progress₁ progress₂, datum :: data,
      .cons (holds.mono progress₂.evolves) all, rfl, fun other member => ?_⟩
    rcases List.mem_cons.mp member with rfl | member
    · exact deep
    · exact short other member

/-! ### The walk of a cell with a tree -/

/-- **A walk finds what the tree of a cell says**, and forces nothing: the cells of the elements of a
list, whose trees are found again; or the number that a chain of pairs ends in, which is shown if it
is within the limit. -/
structure WalksAs (depth : Nat) (x : CellId) (store : Store) (tree : Tree) : Prop where
  still : ∀ n, depth ≤ n → (elements n x).after store = store
  list : ∀ trees, tree = .list trees → ∃ cells : List CellId, ∀ n, depth ≤ n →
    elements n x store = .ok cells store ∧
      List.Forall₂ (fun y tree => materialize n y store = .ok tree store) cells trees
  number : ∀ m, tree.ending? = some m → writable m = true → ∀ n, depth ≤ n →
    ∃ reason, elements n x store = .error (.fault reason) store ∧ reason.category = .notAList ∧
      reason.message = "Not a list: reached number " ++ decimal m
  either : (∃ trees, tree = .list trees) ∨ ∃ m, tree.ending? = some m

/-- The spine of a cell that holds elements is shorter than the depth that their tree takes. -/
theorem exists_short_spine {rest : Datum} (holds : store.Holds x (data.foldr .pair rest))
    (deep : (data.foldr Datum.pair rest).rank ≤ depth) :
    ∃ cells y, store.Spine x cells y ∧ List.Forall₂ store.Holds cells data ∧ store.Holds y rest ∧
      cells.length < depth := by
  obtain ⟨cells, y, spine, all, ends⟩ := Store.holds_foldr_iff.mp holds
  refine ⟨cells, y, spine, all, ends, ?_⟩
  have long := (data.foldr Datum.pair rest).length_lt_rank
  rw [Datum.length_foldr] at long
  rw [all.length_eq]
  omega

/-- The trees of cells that hold data are found without a change to the store. -/
theorem forall₂_materialize (all : List.Forall₂ store.Holds cells data)
    (short : ∀ datum ∈ data, datum.rank ≤ depth) :
    List.Forall₂ (fun y tree => materialize depth y store = .ok tree store) cells
      (data.map Datum.tree) := by
  induction all with
  | nil => exact .nil
  | cons holds _ ih =>
    exact .cons (materialize_of_holds holds (short _ List.mem_cons_self))
      (ih fun datum member => short datum (List.mem_cons_of_mem _ member))

theorem walksAs_of_list (holds : store.Holds x (data.foldr .pair .nil))
    (deep : (data.foldr Datum.pair .nil).rank ≤ depth) :
    WalksAs depth x store (.list (data.map Datum.tree)) := by
  obtain ⟨cells, y, spine, all, ends, short⟩ := exists_short_spine holds deep
  have walk : ∀ n, depth ≤ n → elements n x store = .ok cells store := fun n le =>
    elements_of_nil spine ends (Nat.lt_of_lt_of_le short le)
  refine ⟨fun n le => Eval.after_of_ok (walk n le), ?_, nofun, .inl ⟨_, rfl⟩⟩
  rintro trees ⟨⟩
  refine ⟨cells, fun n le => ⟨walk n le, forall₂_materialize all fun datum member => ?_⟩⟩
  exact Nat.le_trans (Nat.le_of_lt (Datum.rank_lt_rank_foldr .nil member)) (Nat.le_trans deep le)

theorem walksAs_of_num {n : Int} (holds : store.Holds x (data.foldr .pair (.num n)))
    (deep : (data.foldr Datum.pair (.num n)).rank ≤ depth) :
    WalksAs depth x store (data.foldr Datum.pair (.num n)).tree := by
  obtain ⟨cells, y, spine, -, ends, short⟩ := exists_short_spine holds deep
  have ending : (data.foldr Datum.pair (.num n)).tree.ending? = some n :=
    Datum.ending?_tree_foldr data (.num n)
  have walk : ∀ m, depth ≤ m →
      elements m x store = Eval.faultShowing .listEndsInNumber n store := fun m le =>
    elements_of_num spine ends (Nat.lt_of_lt_of_le short le)
  refine ⟨fun m le => ?_, fun trees same => ?_, fun m named within k le => ?_, .inr ⟨n, ending⟩⟩
  · rw [Eval.after, walk m le, Eval.faultShowing]
    by_cases within : writable n = true
    · rw [if_pos within]
      rfl
    · rw [if_neg within]
      rfl
  · rw [same] at ending
    cases ending
  · rw [ending] at named
    cases named
    refine ⟨.listEndsInNumber n, ?_, rfl, rfl⟩
    rw [walk k le, Eval.faultShowing, if_pos within]
    rfl

/-- A cell that holds data is walked as its tree says. -/
theorem walksAs_of_holds (holds : store.Holds x datum) (deep : datum.rank ≤ depth) :
    WalksAs depth x store datum.tree := by
  obtain ⟨data, rfl | ⟨n, rfl⟩⟩ := datum.exists_spine
  · rw [Datum.tree_foldr_nil]
    exact walksAs_of_list holds deep
  · exact walksAs_of_num holds deep

/-- A cell whose elements were answered, and have their trees found, holds the list of them. -/
theorem materialize_of_elements {depth' : Nat} {trees : List Tree} {middle : Store}
    (represented : store.Represented) (there : store.Has x)
    (walked : elements depth x store = .ok cells middle)
    (found : cells.mapM (materialize depth') middle = .ok trees later) {n : Nat}
    (deep : depth + depth' ≤ n) : materialize n x later = .ok (.list trees) later := by
  obtain ⟨progress, y, spine, ends, short, inside⟩ := elements_spine represented there walked
  obtain ⟨progress', data, all, rfl, below⟩ :=
    mapM_materialize_holds progress.represented inside found
  have holds : later.Holds x (data.foldr .pair .nil) := Store.holds_foldr_iff.mpr
    ⟨cells, y, spine.mono progress'.evolves, all, ends.mono progress'.evolves⟩
  have length := all.length_eq
  have rank := Datum.rank_foldr_nil_le below
  rw [materialize_of_holds holds (by omega), Datum.tree_foldr_nil]

/-! ### Trees and walks in a session -/

namespace Session

/-- **The tree of a cell is the canonical tree of its data.** If the tree of a cell is found after any
steps of a session, then everything in the cell is forced: it holds one datum, and the tree is that
of the datum, in which no pair has a list for its second half. -/
theorem materialize_canonical (history : List (Nat × Step)) {depth : Nat} {x : CellId} {tree : Tree}
    {later : Store} (there : (reached history).store.Has x)
    (found : materialize depth x (reached history).store = .ok tree later) :
    ∃ datum : Datum, later.Holds x datum ∧ (∀ other, later.Holds x other → other = datum) ∧
      tree = datum.tree ∧ tree.Canonical := by
  obtain ⟨datum, rfl, -, holds, -⟩ :=
    materialize_found depth (sound_reached history).represented there found
  exact ⟨datum, holds, fun _ => holds.unique, rfl, datum.canonical_tree⟩

/-- A pair of a list and a number, with suspensions in both, has a canonical tree. -/
theorem materialize_canonical_suspended :
    let history := [(20, Step.ofCommand (.environment (.load
      "xs = ap ap cons ap inc 1 ys\nys = ap ap cons nil nil\nzs = ap ap cons xs ap inc 2")))]
    let later := (materialize 20 ⟨29⟩).after (reached history).store
    let tree := Tree.pair (.list [.num 2, .list []]) (.num 3)
    (materialize 20 ⟨29⟩).verdict (reached history).store = .ok tree ∧
      later.Holds ⟨29⟩ (.pair (.pair (.num 2) (.pair .nil .nil)) (.num 3)) ∧ tree.Canonical := by
  intro history later tree
  obtain ⟨there, finds⟩ : 29 < (reached history).store.cells.size ∧
      (materialize 20 ⟨29⟩).verdict (reached history).store = .ok tree := by decide +kernel
  obtain ⟨datum, holds, -, same, canonical⟩ :=
    materialize_canonical history there (Eval.eq_ok_of_verdict finds)
  have data : datum = .pair (.pair (.num 2) (.pair .nil .nil)) (.num 3) :=
    Datum.tree_injective same.symm
  rw [data] at holds
  exact ⟨finds, holds, canonical⟩

/-- **The walk along a list and its tree agree**, for every cell after any steps of a session. Once
the tree of the cell is found, a walk finds what the tree says and forces nothing. And once the cell
is walked and the trees of its elements are found in turn, its own tree is found as the list of them,
with nothing more to force. -/
theorem elements_agree (history : List (Nat × Step)) (depth : Nat) {x : CellId}
    (there : (reached history).store.Has x) :
    (∀ tree later, materialize depth x (reached history).store = .ok tree later →
      WalksAs depth x later tree) ∧
    (∀ depth' cells trees middle later, elements depth x (reached history).store = .ok cells middle →
      cells.mapM (materialize depth') middle = .ok trees later →
      ∀ n, depth + depth' ≤ n → materialize n x later = .ok (.list trees) later) := by
  have represented := (sound_reached history).represented
  constructor
  · intro tree later found
    obtain ⟨datum, rfl, -, holds, deep, -⟩ := materialize_found depth represented there found
    exact walksAs_of_holds holds deep
  · intro depth' cells trees middle later walked found n deep
    exact materialize_of_elements represented there walked found deep

/-- A list whose first element and whose rest are suspended is walked after its tree was found, and
the other way round; a pair of it and a number is no list. -/
theorem elements_agree_suspended :
    let history := [(20, Step.ofCommand (.environment (.load
      "xs = ap ap cons ap inc 1 ys\nys = ap ap cons nil nil\nzs = ap ap cons xs ap inc 2")))]
    let store := (reached history).store
    let trees := [Tree.num 2, .list []]
    let shown := (materialize 20 ⟨23⟩).after store
    let walked := ([⟨20⟩, ⟨18⟩].mapM (materialize 20)).after ((elements 20 ⟨23⟩).after store)
    let paired := (materialize 20 ⟨29⟩).after store
    (∃ cells, elements 20 ⟨23⟩ shown = .ok cells shown ∧
      List.Forall₂ (fun y tree => materialize 20 y shown = .ok tree shown) cells trees) ∧
    materialize 40 ⟨23⟩ walked = .ok (.list trees) walked ∧
    ∃ reason, elements 20 ⟨29⟩ paired = .error (.fault reason) paired ∧
      reason.category = .notAList ∧ reason.message = "Not a list: reached number 3" := by
  intro history store trees shown walked paired
  obtain ⟨there, finds, pairs, walks, each⟩ : 29 < store.cells.size ∧
      (materialize 20 ⟨23⟩).verdict store = .ok (.list trees) ∧
      (materialize 20 ⟨29⟩).verdict store = .ok (.pair (.list trees) (.num 3)) ∧
      (elements 20 ⟨23⟩).verdict store = .ok [⟨20⟩, ⟨18⟩] ∧
      ([⟨20⟩, ⟨18⟩].mapM (materialize 20)).verdict ((elements 20 ⟨23⟩).after store) =
        .ok trees := by decide +kernel
  have inside : store.Has ⟨23⟩ := Nat.lt_trans (by decide) there
  obtain ⟨forward, backward⟩ := elements_agree history 20 inside
  refine ⟨?_, ?_, ?_⟩
  · obtain ⟨cells, agree⟩ := (forward _ _ (Eval.eq_ok_of_verdict finds)).list trees rfl
    exact ⟨cells, agree 20 (Nat.le_refl 20)⟩
  · exact backward 20 _ trees _ _ (Eval.eq_ok_of_verdict walks) (Eval.eq_ok_of_verdict each) 40
      (Nat.le_refl 40)
  · exact ((elements_agree history 20 there).1 _ _ (Eval.eq_ok_of_verdict pairs)).number 3 rfl
      (by decide +kernel) 20 (Nat.le_refl 20)

end Session

end ByNeed
