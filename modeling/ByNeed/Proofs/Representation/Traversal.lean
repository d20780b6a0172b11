/-
**Traversals keep the representation.**

Every traversal forces cells one after the other, so the store evolves and goes on to represent its
terms. The tree that is found for a cell is the tree of its term (`materialize_ensures`), and the
mistake that it ends in is that of the demands for this tree, unless an early reduction can fail in
the same way.

The spine of a list is walked with the trees of the elements in reverse order; putting them in front
of the tree of the rest, the latest first, gives the tree of the whole (`prependAll_num`,
`prependAll_list`).
-/

import ByNeed.Proofs.Reduction.Data
import ByNeed.Proofs.Representation.Force
import ByNeed.Traversal

namespace ByNeed

open Reduction
open Reduction.Action (Yields Fails Passes Continues)
open Reduction.Term (Shows ShowFails)

/-! ### Trees in reverse order -/

/-- Put trees in front of a tree, the first of them closest to it. -/
def Tree.prependAll (reversed : List Tree) (rest : Tree) : Tree :=
  reversed.foldl (fun rest first => first.prepend rest) rest

theorem prependAll_pair (reversed : List Tree) (first second : Tree) :
    Tree.prependAll reversed (.pair first second) = Tree.pairUp reversed (.pair first second) := by
  induction reversed generalizing first second with
  | nil => rfl
  | cons tree reversed ih => exact ih tree (.pair first second)

theorem prependAll_num (reversed : List Tree) (n : Int) :
    Tree.prependAll reversed (.num n) = Tree.pairUp reversed (.num n) := by
  cases reversed with
  | nil => rfl
  | cons tree reversed => exact prependAll_pair reversed tree (.num n)

theorem prependAll_list (reversed elems : List Tree) :
    Tree.prependAll reversed (.list elems) = .list (reversed.reverse ++ elems) := by
  induction reversed generalizing elems with
  | nil => rfl
  | cons tree reversed ih =>
    rw [List.reverse_cons, List.append_assoc]
    exact ih (tree :: elems)

/-! ### Pairs -/

section Pairs

variable {depth rounds : Nat} {x head tail : CellId} {store later middle last : Store}
  {first second : List Token}

/-- The rest of a loop at a pair, once this is forced. -/
theorem materializeWith_of_pair {force : CellId → Eval Value} {find : CellId → Eval Tree}
    {reversed : List Tree} (forced : force x store = .ok (.pair head tail) later) :
    materializeWith force find (rounds + 1) reversed x store = (do
      let first ← find head
      materializeWith force find rounds (first :: reversed) tail) later := by
  rw [materializeWith, bind_of_ok forced]

/-- The tokens of a pair, once it is forced. -/
theorem sourceTokens_of_pair (forced : force depth x store = .ok (.pair head tail) later) :
    sourceTokens (depth + 1) x store = (do
      let first ← sourceTokens depth head
      let second ← sourceTokens depth tail
      pure (.ap :: .ap :: .symbol "cons" :: (first ++ second)) : Eval (List Token)) later := by
  rw [sourceTokens, bind_of_ok forced]

/-- The tokens of a pair, from those of its halves. -/
theorem sourceTokens_of_halves (forced : force depth x store = .ok (.pair head tail) later)
    (front : sourceTokens depth head later = .ok first middle)
    (back : sourceTokens depth tail middle = .ok second last) :
    sourceTokens (depth + 1) x store =
      .ok (.ap :: .ap :: .symbol "cons" :: (first ++ second)) last := by
  rw [sourceTokens_of_pair forced, bind_of_ok front, bind_of_ok back]
  rfl

end Pairs

/-! ### Growth -/

/-- A store has evolved, and still represents its terms. -/
def Grown (defs : Glossary) (terms : Terms) (store store' : Store) : Prop :=
  ∃ terms', Grows defs terms store terms' store'

variable {defs : Glossary} {terms terms' : Terms} {store store' store'' : Store} {x y : CellId}
  {t : Term} {v : Value} {w : Whnf} {force : CellId → Eval Value} {find : CellId → Eval Tree}

theorem Grows.grown (grows : Grows defs terms store terms' store') : Grown defs terms store store' :=
  ⟨terms', grows⟩

theorem Grown.after (grows : Grows defs terms store terms' store')
    (grown : Grown defs terms' store' store'') : Grown defs terms store store'' := by
  obtain ⟨terms'', further⟩ := grown
  exact ⟨terms'', grows.trans further⟩

/-- A cell is forced on the way. -/
theorem ForceSpec.grown (forced : ForceSpec defs force) (represents : Represents defs terms store)
    (there : store.Has x) :
    (force x).Ensures store
      (fun v store' => ∃ terms', Grows defs terms store terms' store' ∧ ∀ y ∈ v.cells, store'.Has y)
      fun _ store' => Grown defs terms store store' := by
  refine (forced represents there).mono (fun v store' forces => ?_)
    fun failure store' falters => ?_
  · obtain ⟨terms', n, w, grows, covers, -⟩ := forces
    exact ⟨terms', grows, fun y member => grows.represents.has_iff.mpr (covers y member)⟩
  · obtain ⟨terms', grows, -⟩ := falters
    exact grows.grown

/-! ### The tree of a cell -/

/-- How to find the tree of a cell finds that of its term. -/
def FindSpec (defs : Glossary) (find : CellId → Eval Tree) : Prop :=
  ∀ {terms : Terms} {store : Store} {x : CellId}, Represents defs terms store → store.Has x →
    (find x).Ensures store
      (fun tree store' => Grown defs terms store store' ∧ (terms.of x).Shows defs tree)
      fun failure store' => Grown defs terms store store' ∧
        failure.Tells ((terms.of x).ShowFails defs)

/-- **The tree of a spine** is the tree of its term, with the trees of the earlier elements in front
of it. -/
theorem materializeWith_ensures (forced : ForceSpec defs force) (found : FindSpec defs find)
    (rounds : Nat) (reversed : List Tree) (represents : Represents defs terms store)
    (there : store.Has x) :
    (materializeWith force find rounds reversed x).Ensures store
      (fun tree store' => Grown defs terms store store' ∧
        ∃ rest, (terms.of x).Shows defs rest ∧ tree = Tree.prependAll reversed rest)
      fun failure store' => Grown defs terms store store' ∧
        failure.Tells ((terms.of x).ShowFails defs) := by
  induction rounds generalizing terms store reversed x with
  | zero => exact ⟨(Grows.refl represents).grown, Or.inl rfl⟩
  | succ rounds ih =>
    unfold materializeWith
    refine (forced represents there).bind (fun v store₁ forces => ?_)
      fun failure store₁ falters => ?_
    · obtain ⟨terms₁, n, w, grows₁, covers, yields, reduces, -⟩ := forces
      cases v with
      | num m =>
        cases reduces
        exact ⟨grows₁.grown, .num m, .num yields, (prependAll_num reversed m).symm⟩
      | nil =>
        cases reduces
        refine ⟨grows₁.grown, .list [], .nil yields, ?_⟩
        rw [prependAll_list, List.append_nil]
      | func f =>
        have function : w.IsFunction := reduces.isFunction
          (show (f.whnf terms₁.of).IsFunction by cases f <;> trivial)
        exact ⟨grows₁.grown, Failure.tells_fault (.function yields function)⟩
      | pair head tail =>
        have first := grows₁.represents.has_iff.mpr (covers head (by simp [Value.cells]))
        have second := grows₁.represents.has_iff.mpr (covers tail (by simp [Value.cells]))
        cases reduces with
        | pair reducesHead reducesTail =>
          refine (found grows₁.represents first).bind ?_ ?_
          · rintro tree store₂ ⟨⟨terms₂, grows₂⟩, shows⟩
            have shown := shows.of_reduces reducesHead
            refine (ih (tree :: reversed) grows₂.represents (grows₂.evolves.has second)).mono ?_ ?_
            · rintro whole store₃ ⟨grown, rest, showsRest, rfl⟩
              rw [grows₂.of_eq grows₁.represents second] at showsRest
              exact ⟨(grown.after grows₂).after grows₁, _,
                .pair yields shown (showsRest.of_reduces reducesTail), rfl⟩
            · rintro failure store₃ ⟨grown, tells⟩
              rw [grows₂.of_eq grows₁.represents second] at tells
              exact ⟨(grown.after grows₂).after grows₁, tells.mono fun c fails =>
                .tail yields shown (fails.of_reduces reducesTail)⟩
          · rintro failure store₂ ⟨grown, tells⟩
            exact ⟨grown.after grows₁, tells.mono fun c fails =>
              .head yields (fails.of_reduces reducesHead)⟩
    · obtain ⟨terms₁, grows₁, tells, -⟩ := falters
      exact ⟨grows₁.grown, tells.mono fun c fails => .fails fails⟩

/-- **The tree that is found for a cell is the tree of its term.** -/
theorem materialize_ensures (depth : Nat) : FindSpec defs (materialize depth) := by
  induction depth with
  | zero =>
    intro terms store x represents there
    exact ⟨(Grows.refl represents).grown, Or.inl rfl⟩
  | succ depth ih =>
    intro terms store x represents there
    refine (materializeWith_ensures (force_ensures depth) ih (depth + 1) [] represents there).mono
      ?_ fun _ _ falters => falters
    rintro tree store' ⟨grown, rest, shows, rfl⟩
    exact ⟨grown, shows⟩

/-- The text of a cell is that of the tree of its term. -/
theorem render_ensures (depth : Nat) (represents : Represents defs terms store)
    (there : store.Has x) :
    (render depth x).Ensures store
      (fun s store' => Grown defs terms store store' ∧
        ∃ tree, (terms.of x).Shows defs tree ∧ tree.text = s)
      fun failure store' => Grown defs terms store store' ∧
        failure.Tells ((terms.of x).ShowFails defs) := by
  refine (materialize_ensures depth represents there).bind ?_ fun _ _ falters => falters
  rintro tree store' ⟨grown, shows⟩
  unfold showTree
  cases tree.writable with
  | false => exact ⟨grown, Or.inl rfl⟩
  | true => exact ⟨grown, tree, shows, rfl⟩

/-! ### Other traversals -/

theorem elementsWith_ensures (forced : ForceSpec defs force) (rounds : Nat) {found : List CellId}
    (represents : Represents defs terms store) (there : store.Has x)
    (inside : ∀ y ∈ found, store.Has y) :
    (elementsWith force rounds found x).Ensures store
      (fun cells store' => Grown defs terms store store' ∧ ∀ y ∈ cells, store'.Has y)
      fun _ store' => Grown defs terms store store' := by
  induction rounds generalizing terms store found x with
  | zero => exact (Grows.refl represents).grown
  | succ rounds ih =>
    unfold elementsWith
    refine (forced.grown represents there).bind ?_ fun _ _ grown => grown
    rintro v store₁ ⟨terms₁, grows, cells⟩
    have kept : ∀ y ∈ found, store₁.Has y := fun y member => grows.evolves.has (inside y member)
    cases v with
    | nil => exact ⟨grows.grown, fun y member => kept y (List.mem_reverse.mp member)⟩
    | pair head tail =>
      have more : ∀ y ∈ head :: found, store₁.Has y := by
        intro y member
        rcases List.mem_cons.mp member with rfl | member
        · exact cells y (by simp [Value.cells])
        · exact kept y member
      refine (ih grows.represents (cells tail (by simp [Value.cells])) more).mono ?_
        fun _ _ grown => grown.after grows
      rintro all store₂ ⟨grown, there⟩
      exact ⟨grown.after grows, there⟩
    | num n =>
      show (Eval.faultShowing .listEndsInNumber n : Eval (List CellId)).Ensures store₁ _ _
      rw [Eval.ensures_faultShowing]
      exact grows.grown
    | func f => exact grows.grown

theorem elements_ensures (depth : Nat) (represents : Represents defs terms store)
    (there : store.Has x) :
    (elements depth x).Ensures store
      (fun cells store' => Grown defs terms store store' ∧ ∀ y ∈ cells, store'.Has y)
      fun _ store' => Grown defs terms store store' := by
  cases depth with
  | zero => exact (Grows.refl represents).grown
  | succ depth =>
    exact elementsWith_ensures (force_ensures depth) (depth + 1) represents there
      fun _ member => nomatch member

theorem sourceTokens_ensures (depth : Nat) (represents : Represents defs terms store)
    (there : store.Has x) :
    (sourceTokens depth x).Ensures store (fun _ store' => Grown defs terms store store')
      fun _ store' => Grown defs terms store store' := by
  induction depth generalizing terms store x with
  | zero => exact (Grows.refl represents).grown
  | succ depth ih =>
    unfold sourceTokens
    refine (ForceSpec.grown (force_ensures depth) represents there).bind ?_ fun _ _ grown => grown
    rintro v store₁ ⟨terms₁, grows₁, cells⟩
    cases v with
    | num n =>
      show Eval.Ensures (if writable n then _ else _) store₁ _ _
      cases writable n with
      | false => exact grows₁.grown
      | true => exact grows₁.grown
    | nil => exact grows₁.grown
    | func f => exact grows₁.grown
    | pair head tail =>
      refine (ih grows₁.represents (cells head (by simp [Value.cells]))).bind ?_
        fun _ _ grown => grown.after grows₁
      rintro first store₂ ⟨terms₂, grows₂⟩
      refine (ih grows₂.represents (grows₂.evolves.has (cells tail (by simp [Value.cells])))).bind
        ?_ fun _ _ grown => (grown.after grows₂).after grows₁
      exact fun second store₃ grown => (grown.after grows₂).after grows₁

theorem isNil_ensures (depth : Nat) (represents : Represents defs terms store)
    (there : store.Has x) :
    (isNil depth x).Ensures store (fun _ store' => Grown defs terms store store')
      fun _ store' => Grown defs terms store store' := by
  refine (isNilWith_ensures (force_ensures depth) (apply_ensures depth) represents there).mono ?_ ?_
  · rintro flag store' ⟨terms', -, -, grows, -⟩
    exact grows.grown
  · rintro failure store' ⟨terms', grows, -⟩
    exact grows.grown

end ByNeed
