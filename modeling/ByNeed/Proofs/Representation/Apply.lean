/-
**Application keeps the representation.**

Applying a cell to a cell adds cells and changes none. The cell it answers either is new and stands
for the application of the two terms, or stands for what that application comes down to, so it is
the result of an early reduction in both cases (`apply_ensures`). What goes wrong on the way is a
mistake in an application or in taking a half, perhaps one whose result nobody would have asked for.

* `Applies`: what the cell that an application answers stands for;
* `Balks`: how an application fails;
* `applyWith_ensures`: the same of a value that is applied, given how further cells are.
-/

import ByNeed.Proofs.Representation

namespace ByNeed

open Reduction
open Reduction.Action (Yields Fails Passes Continues)

/-- A fault that an early reduction can end in: a number is applied, or a half is taken of something
that is no pair, or this is the cause for which a function fails on a question. -/
def Fault.isEarly : Fault → Bool
  | .appliedNumber _ => true
  | .halfOf _ _ => true
  | .isNilFailed _ cause => cause.isEarly
  | _ => false

/-- A failure that an early reduction can end in, so that it says nothing about the demands: a fault
of this kind, a number that is too long for the message, or nesting too deeply. -/
def Failure.isEarly : Failure → Bool
  | .fault reason => reason.isEarly
  | .oversizeNumeral _ => false
  | .oversizeNumber => true
  | .depthExhausted => true

/-- **A store was built further**, and still represents the terms that it did, with further ones. -/
structure Built (defs : Glossary) (terms : Terms) (store : Store) (terms' : Terms)
    (store' : Store) : Prop where
  terms : terms <+: terms'
  represents : Represents defs terms' store'
  builds : store.Builds store'

/-- A cell stands for what a term reduces to early. -/
def Reaches (defs : Glossary) (terms : Terms) (store : Store) (t : Term) (r : CellId)
    (store' : Store) : Prop :=
  ∃ terms', Built defs terms store terms' store' ∧ store'.Has r ∧ t.Reduces defs (terms'.of r)

/-- **A cell is the result of an application**: it is new and stands for the application, or it
stands for what the application comes down to. -/
def Applies (defs : Glossary) (terms : Terms) (store : Store) (t : Term) (r : CellId)
    (store' : Store) : Prop :=
  ∃ terms', Built defs terms store terms' store' ∧ store'.Has r ∧
    ((¬ store.Has r ∧ terms'.of r = t) ∨
      ∃ b u, Passes defs t.action b ∧ Continues defs b u ∧ u.Reduces defs (terms'.of r))

/-- An application fails, having built the store further. -/
def Balks (defs : Glossary) (terms : Terms) (store : Store) (failure : Failure) (store' : Store) :
    Prop :=
  failure.isEarly = true ∧ ∃ terms', Built defs terms store terms' store'

variable {defs : Glossary} {terms terms' : Terms} {store store' : Store} {f x r : CellId}
  {g t t' u y : Term} {v : Value} {w w' : Whnf} {n : Nat}

namespace Built

theorem refl (represents : Represents defs terms store) : Built defs terms store terms store :=
  ⟨List.prefix_refl terms, represents, .refl⟩

theorem trans {terms'' : Terms} {store'' : Store} (first : Built defs terms store terms' store')
    (second : Built defs terms' store' terms'' store'') : Built defs terms store terms'' store'' :=
  ⟨first.terms.trans second.terms, second.represents, first.builds.trans second.builds⟩

theorem grows (built : Built defs terms store terms' store') :
    Grows defs terms store terms' store' :=
  ⟨built.terms, built.represents, built.builds.evolves, built.builds.counts, built.builds.tables_eq⟩

theorem alloc {c : Cell} (represents : Represents defs terms store)
    (stands : c.StandsFor defs terms t) :
    Built defs terms store (terms ++ [t]) (store.alloc c).2 :=
  ⟨List.prefix_append terms [t], represents.alloc stands, .alloc c .refl⟩

theorem has (built : Built defs terms store terms' store') (there : store.Has x) : store'.Has x :=
  built.builds.evolves.has there

theorem of_eq (built : Built defs terms store terms' store')
    (represents : Represents defs terms store) (there : store.Has x) :
    terms'.of x = terms.of x :=
  built.grows.of_eq represents there

end Built

theorem Balks.early (represents : Represents defs terms store) {failure : Failure}
    (early : failure.isEarly = true) : Balks defs terms store failure store :=
  ⟨early, terms, .refl represents⟩

theorem Balks.after (built : Built defs terms store terms' store') {failure : Failure}
    {store'' : Store} (balks : Balks defs terms' store' failure store'') :
    Balks defs terms store failure store'' := by
  obtain ⟨early, terms'', further⟩ := balks
  exact ⟨early, terms'', built.trans further⟩

theorem Applies.reaches (applies : Applies defs terms store t r store') :
    Reaches defs terms store t r store' := by
  obtain ⟨terms', built, there, ⟨_, rfl⟩ | ⟨b, u, passes, continues, reduces⟩⟩ := applies
  · exact ⟨terms', built, there, .refl _⟩
  · exact ⟨terms', built, there, .leads passes continues reduces⟩

theorem Reaches.after (built : Built defs terms store terms' store') {store'' : Store}
    (reduces : t.Reduces defs t') (reaches : Reaches defs terms' store' t' r store'') :
    Reaches defs terms store t r store'' := by
  obtain ⟨terms'', further, there, rest⟩ := reaches
  exact ⟨terms'', built.trans further, there, reduces.trans rest⟩

/-- What an application comes down to is its result. -/
theorem Reaches.applies {b : Action} (passes : Passes defs t.action b)
    (continues : Continues defs b u) (reaches : Reaches defs terms store u r store') :
    Applies defs terms store t r store' := by
  obtain ⟨terms', built, there, reduces⟩ := reaches
  exact ⟨terms', built, there, Or.inr ⟨b, u, passes, continues, reduces⟩⟩

/-- A cell that is there already. -/
theorem Represents.reaches (represents : Represents defs terms store) (there : store.Has r)
    (reduces : t.Reduces defs (terms.of r)) : Reaches defs terms store t r store :=
  ⟨terms, .refl represents, there, reduces⟩

/-- A new cell for an application. -/
theorem Represents.applies_alloc {c : Cell} (represents : Represents defs terms store)
    (stands : c.StandsFor defs terms t) :
    Applies defs terms store t (store.alloc c).1 (store.alloc c).2 :=
  ⟨terms ++ [t], .alloc represents stands, Store.has_alloc store c,
    Or.inl ⟨Store.not_has_alloc store c, represents.of_alloc c t⟩⟩

/-! ### Values applied -/

/-- An application comes down to what the weak head normal form of its head does with the
argument. -/
theorem passes_app (yields : Yields defs g.action n w) (y : Term) :
    Passes defs (Term.app g y).action (w.apply y) :=
  .demand yields (.refl _)

/-- An application whose head is given an argument that it stores has an answer. -/
theorem yields_app (yields : Yields defs g.action n w) (answer : w.apply y = .answer w') :
    Yields defs (Term.app g y).action (n + 0 + 1) w' := by
  have rest : Yields defs ((Frame.argument y).resume w) 0 w' := by
    show Yields defs (w.apply y) 0 w'
    rw [answer]
    exact .answer w'
  exact .demand yields rest

/-- How to apply a cell to a cell keeps the representation. -/
def ApplySpec (defs : Glossary) (apply : CellId → CellId → Eval CellId) : Prop :=
  ∀ {terms : Terms} {store : Store} {f x : CellId}, Represents defs terms store →
    store.Has f → store.Has x →
    (apply f x).Ensures store
      (Applies defs terms store (.app (terms.of f) (terms.of x))) (Balks defs terms store)

variable {apply : CellId → CellId → Eval CellId}

/-- The first cell applied to the second, and the result to the third. -/
theorem ApplySpec.left (spec : ApplySpec defs apply) (represents : Represents defs terms store)
    {a b : CellId} (first : store.Has a) (second : store.Has x) (third : store.Has b) :
    (do apply (← apply a x) b : Eval CellId).Ensures store
      (Reaches defs terms store (.app (.app (terms.of a) (terms.of x)) (terms.of b)))
      (Balks defs terms store) := by
  refine (spec represents first second).bind (fun r store' applies => ?_) fun _ _ balks => balks
  obtain ⟨terms', built, there, reduces⟩ := applies.reaches
  refine (spec built.represents there (built.has third)).mono (fun r' store'' again => ?_)
    fun _ _ balks => balks.after built
  rw [built.of_eq represents third] at again
  exact again.reaches.after built (.app reduces (.refl _))

/-- The first cell applied to the second applied to the third. -/
theorem ApplySpec.right (spec : ApplySpec defs apply) (represents : Represents defs terms store)
    {a b : CellId} (first : store.Has a) (second : store.Has b) (third : store.Has x) :
    (do apply a (← apply b x) : Eval CellId).Ensures store
      (Reaches defs terms store (.app (terms.of a) (.app (terms.of b) (terms.of x))))
      (Balks defs terms store) := by
  refine (spec represents second third).bind (fun r store' applies => ?_) fun _ _ balks => balks
  obtain ⟨terms', built, there, reduces⟩ := applies.reaches
  refine (spec built.represents (built.has first) there).mono (fun r' store'' again => ?_)
    fun _ _ balks => balks.after built
  rw [built.of_eq represents first] at again
  exact again.reaches.after built (.app (.refl _) reduces)

/-- **Taking a half**: of a cell with a value at once, and else later. -/
theorem takeHalf_ensures {side : Half} (represents : Represents defs terms store)
    (yields : Yields defs g.action n (.unary (.half side))) (there : store.Has x) :
    (takeHalf side x).Ensures store
      (Applies defs terms store (.app g (terms.of x))) (Balks defs terms store) := by
  have passes := passes_app yields (terms.of x)
  unfold takeHalf
  rw [Eval.ensures_bind, Eval.ensures_cell]
  cases holds : store.cell x with
  | suspended s =>
    refine represents.applies_alloc ⟨?_, _, passes, .refl _⟩
    simpa [Terms.Covers, Suspension.cells] using represents.covers there
  | value v =>
    obtain ⟨covers, m, w, demanded, reduces⟩ := represents.value there holds
    cases v with
    | pair head tail =>
      cases reduces with
      | @pair head' _ tail' _ first second =>
        have half : Passes defs (Term.app g (terms.of x)).action (.become (pick side head' tail')) :=
          passes.trans (.demand demanded (.refl _))
        cases side with
        | head =>
          have inside : store.Has head := represents.has_iff.mpr (covers head (by simp [Value.cells]))
          exact (represents.reaches inside first).applies half (.become _)
        | tail =>
          have inside : store.Has tail := represents.has_iff.mpr (covers tail (by simp [Value.cells]))
          exact (represents.reaches inside second).applies half (.become _)
    | num m => exact .early represents rfl
    | nil => exact .early represents rfl
    | func f => exact .early represents rfl

/-- A new cell for an application whose head stores its argument. -/
theorem Represents.applies_value (represents : Represents defs terms store)
    (covers : terms.Covers v.cells) (yields : Yields defs t.action n w)
    (reduces : w.Reduces defs (v.whnf terms.of)) :
    (Eval.value v).Ensures store (Applies defs terms store t) (Balks defs terms store) :=
  represents.applies_alloc ⟨covers, n, w, yields, reduces⟩

/-- A new cell for an application whose head suspends its work. -/
theorem Represents.applies_suspension {s : Suspension} {b : Action}
    (represents : Represents defs terms store) (covers : terms.Covers s.cells)
    (passes : Passes defs t.action b) (reduces : b.Reduces defs (s.action terms.of)) :
    (Eval.suspend s).Ensures store (Applies defs terms store t) (Balks defs terms store) :=
  represents.applies_alloc ⟨covers, b, passes, reduces⟩

/-- The result of an application that is a cell at hand. -/
theorem Represents.applies_pure {b : Action} (represents : Represents defs terms store)
    (passes : Passes defs t.action b) (continues : Continues defs b u) (there : store.Has r)
    (reduces : u.Reduces defs (terms.of r)) :
    (pure r : Eval CellId).Ensures store (Applies defs terms store t) (Balks defs terms store) :=
  (represents.reaches there reduces).applies passes continues

/-- **Giving a function of one argument its argument.** -/
theorem call_unary_ensures {f : Unary} (represents : Represents defs terms store)
    (yields : Yields defs g.action n (.unary f)) (there : store.Has x) :
    ((Func.unary f).call apply x).Ensures store
      (Applies defs terms store (.app g (terms.of x))) (Balks defs terms store) := by
  have passes := passes_app yields (terms.of x)
  have covers : terms.Covers [x] := by simpa [Terms.Covers] using represents.covers there
  cases f with
  | monop op => exact represents.applies_suspension covers passes (.refl _)
  | isNil => exact represents.applies_suspension covers passes (.refl _)
  | half side => exact takeHalf_ensures represents yields there
  | itself name => exact represents.applies_pure passes (.become _) there (.refl _)

/-- **Giving a function of two arguments its second argument.** -/
theorem call_binaryOn_ensures {f : Binary} {a : CellId} (represents : Represents defs terms store)
    (yields : Yields defs g.action n (.binaryOn f t)) (reduces : t.Reduces defs (terms.of a))
    (first : store.Has a) (there : store.Has x) :
    ((Func.binaryOn f a).call apply x).Ensures store
      (Applies defs terms store (.app g (terms.of x))) (Balks defs terms store) := by
  have passes := passes_app yields (terms.of x)
  have covers : terms.Covers [a, x] := by
    simpa [Terms.Covers] using And.intro (represents.covers first) (represents.covers there)
  cases f with
  | binop op =>
    exact represents.applies_suspension covers passes (.demand reduces (.firstOperand op (.refl _)))
  | cons => exact represents.applies_value covers (yields_app yields rfl) (.pair reduces (.refl _))
  | first name => exact represents.applies_pure passes (.become _) first reduces
  | second name => exact represents.applies_pure passes (.become _) there (.refl _)
  | never =>
    refine represents.applies_value (v := boolean false) ?_ (yields_app yields rfl) (.binary _)
    exact fun _ member => nomatch member

/-- **Giving a function of three arguments its third argument.** -/
theorem call_ternaryOnTwo_ensures {f : Ternary} {a b : CellId} {t₁ t₂ : Term}
    (spec : ApplySpec defs apply) (represents : Represents defs terms store)
    (yields : Yields defs g.action n (.ternaryOnTwo f t₁ t₂))
    (reduces₁ : t₁.Reduces defs (terms.of a)) (reduces₂ : t₂.Reduces defs (terms.of b))
    (first : store.Has a) (second : store.Has b) (there : store.Has x) :
    ((Func.ternaryOnTwo f a b).call apply x).Ensures store
      (Applies defs terms store (.app g (terms.of x))) (Balks defs terms store) := by
  have passes := passes_app yields (terms.of x)
  cases f with
  | share =>
    refine represents.applies_suspension ?_ passes
      (.become (.app (.app reduces₁ (.refl _)) (.app reduces₂ (.refl _))))
    simpa [Terms.Covers, Suspension.cells] using
      And.intro (represents.covers first) ⟨represents.covers second, represents.covers there⟩
  | swap =>
    refine (spec.left represents first there second).mono (fun r later reaches => ?_)
      fun _ _ balks => balks
    have early := reaches.after (.refl represents) (.app (.app reduces₁ (.refl _)) reduces₂)
    exact early.applies passes (.become _)
  | compose =>
    refine (spec.right represents first second there).mono (fun r later reaches => ?_)
      fun _ _ balks => balks
    have early := reaches.after (.refl represents) (.app reduces₁ (.app reduces₂ (.refl _)))
    exact early.applies passes (.become _)
  | first name => exact represents.applies_pure passes (.become _) first reduces₁
  | second name => exact represents.applies_pure passes (.become _) second reduces₂
  | third name => exact represents.applies_pure passes (.become _) there (.refl _)

/-- **Giving a function its argument.** -/
theorem call_ensures {f : Func} (spec : ApplySpec defs apply)
    (represents : Represents defs terms store) (covers : terms.Covers f.held)
    (denotes : Denotes defs terms g (.func f)) (there : store.Has x) :
    (f.call apply x).Ensures store
      (Applies defs terms store (.app g (terms.of x))) (Balks defs terms store) := by
  obtain ⟨n, w, yields, reduces⟩ := denotes
  have inside : ∀ a ∈ f.held, store.Has a := fun a member =>
    represents.has_iff.mpr (covers a member)
  have more : ∀ cells : List CellId, (∀ a ∈ cells, a ∈ f.held ∨ a = x) → terms.Covers cells := by
    intro cells from_ a member
    rcases from_ a member with held | rfl
    · exact covers a held
    · exact represents.covers there
  cases f with
  | unary f =>
    cases reduces
    exact call_unary_ensures represents yields there
  | binary f =>
    cases reduces
    exact represents.applies_value (more [x] (by simp)) (yields_app yields rfl)
      (.binaryOn f (.refl _))
  | binaryOn f a =>
    cases reduces with
    | binaryOn f first =>
      exact call_binaryOn_ensures represents yields first (inside a (by simp [Func.held])) there
  | ternary f =>
    cases reduces
    exact represents.applies_value (more [x] (by simp)) (yields_app yields rfl)
      (.ternaryOn f (.refl _))
  | ternaryOn f a =>
    cases reduces with
    | ternaryOn f first =>
      exact represents.applies_value (more [a, x] (by simp [Func.held])) (yields_app yields rfl)
        (.ternaryOnTwo f first (.refl _))
  | ternaryOnTwo f a b =>
    cases reduces with
    | ternaryOnTwo f first second =>
      exact call_ternaryOnTwo_ensures spec represents yields first second
        (inside a (by simp [Func.held])) (inside b (by simp [Func.held])) there

/-- **Applying a value.** -/
theorem applyWith_ensures (spec : ApplySpec defs apply) (represents : Represents defs terms store)
    (covers : terms.Covers v.cells) (denotes : Denotes defs terms g v) (there : store.Has x) :
    (v.applyWith apply x).Ensures store
      (Applies defs terms store (.app g (terms.of x))) (Balks defs terms store) := by
  cases v with
  | num n =>
    rw [Value.applyWith, Eval.ensures_faultShowing]
    cases writable n with
    | false => exact .early represents rfl
    | true => exact .early represents rfl
  | nil =>
    obtain ⟨n, w, yields, reduces⟩ := denotes
    cases reduces
    refine represents.applies_value (v := boolean true) ?_ (yields_app yields rfl) (.binary _)
    exact fun _ member => nomatch member
  | pair head tail =>
    obtain ⟨n, w, yields, reduces⟩ := denotes
    have first : store.Has head := represents.has_iff.mpr (covers head (by simp [Value.cells]))
    have second : store.Has tail := represents.has_iff.mpr (covers tail (by simp [Value.cells]))
    cases reduces with
    | pair reducesHead reducesTail =>
      refine (spec.left represents there first second).mono (fun r later reaches => ?_)
        fun _ _ balks => balks
      have early := reaches.after (.refl represents)
        (.app (.app (.refl (terms.of x)) reducesHead) reducesTail)
      exact early.applies (passes_app yields (terms.of x)) (.become _)
  | func f => exact call_ensures spec represents covers denotes there

/-- Applying a cell, given how the value it may hold is applied. -/
theorem applyCellWith_ensures {applyValue : Value → CellId → Eval CellId}
    (represents : Represents defs terms store) (head : store.Has f) (there : store.Has x)
    (spec : ∀ v, terms.Covers v.cells → Denotes defs terms (terms.of f) v →
      (applyValue v x).Ensures store
        (Applies defs terms store (.app (terms.of f) (terms.of x))) (Balks defs terms store)) :
    (applyCellWith applyValue f x).Ensures store
      (Applies defs terms store (.app (terms.of f) (terms.of x))) (Balks defs terms store) := by
  unfold applyCellWith
  rw [Eval.ensures_bind, Eval.ensures_cell]
  cases holds : store.cell f with
  | suspended s =>
    refine represents.applies_suspension ?_ (.refl _) (.refl _)
    simpa [Terms.Covers, Suspension.cells] using
      And.intro (represents.covers head) (represents.covers there)
  | value v =>
    obtain ⟨covers, denotes⟩ := represents.value head holds
    exact spec v covers denotes

/-- **Application keeps the representation**, however deeply it may nest. -/
theorem apply_ensures (depth : Nat) : ApplySpec defs (ByNeed.apply depth) := by
  induction depth with
  | zero =>
    intro terms store f x represents head there
    exact applyCellWith_ensures represents head there fun v _ _ => Balks.early represents rfl
  | succ depth ih =>
    intro terms store f x represents head there
    exact applyCellWith_ensures represents head there fun v covers denotes =>
      applyWith_ensures ih represents covers denotes there

/-- Several cells applied one after the other. -/
theorem ApplySpec.fold (spec : ApplySpec defs apply) {args : List CellId}
    (represents : Represents defs terms store) (head : store.Has f)
    (reduces : t.Reduces defs (terms.of f)) (inside : ∀ x ∈ args, store.Has x) :
    (args.foldlM apply f).Ensures store
      (Reaches defs terms store ((args.map terms.of).foldl .app t))
      (Balks defs terms store) := by
  induction args generalizing terms store f t with
  | nil => exact represents.reaches head reduces
  | cons x rest ih =>
    have there : store.Has x := inside x List.mem_cons_self
    rw [List.foldlM_cons]
    refine (spec represents head there).bind (fun r store' applies => ?_) fun _ _ balks => balks
    obtain ⟨terms', built, reached, further⟩ := applies.reaches
    have early : (Term.app t (terms.of x)).Reduces defs (terms'.of r) :=
      Term.Reduces.trans (.app reduces (.refl _)) further
    have same : rest.map terms'.of = rest.map terms.of := List.map_congr_left fun y member =>
      built.of_eq represents (inside y (List.mem_cons_of_mem x member))
    refine (ih built.represents reached early fun y member =>
      built.has (inside y (List.mem_cons_of_mem x member))).mono (fun r' store'' again => ?_)
      fun _ _ balks => balks.after built
    rw [same] at again
    exact again.after built (.refl _)

end ByNeed
