/-
**Early reduction comes to an end.**

Applying a value may apply further cells, but it uses each cell that it is given once: the cells of
the value and the argument. So where the values that cells refer to unfold to finitely many, counted
as often as they are referred to, an application comes to an end, and by the depth that is the number
of values in the operator and the argument (`apply_endsBy`). Nothing is said about suspended cells,
which are not looked into.

* `Store.Unfolds`: the number of values that a cell unfolds to;
* `Store.Layers`: cells were added, each on top of the ones that its value refers to;
* `applyWith_cases`: what the application of a value does, and that it **duplicates nothing**;
* `apply_fits`: what is answered unfolds to no more values than the operator and the argument do;
* `early_reduction_never_ends`: once forced, a function that swaps and refers to itself can be
  applied to nothing.
-/

import ByNeed.Proofs.History
import ByNeed.Proofs.Steps
import ByNeed.Proofs.Termination
import Mathlib

namespace ByNeed

/-- The cells that the value of a cell refers to; a suspended cell has no value yet. -/
def Cell.parts : Cell → List CellId
  | .value v => v.cells
  | .suspended _ => []

namespace Store

variable {store later last : Store} {x y : CellId} {c : Cell} {m n : Nat} {weight : CellId → Nat}

/-! ### Unfolding -/

/-- **A cell unfolds to a number of values**, each counted as often as it is referred to. A suspended
cell counts as one. -/
inductive Unfolds (store : Store) : CellId → Nat → Prop
  | intro {x : CellId} (weight : CellId → Nat) : store.Has x →
      (∀ y ∈ (store.cell x).parts, Unfolds store y (weight y)) →
      Unfolds store x (((store.cell x).parts.map weight).sum + 1)

theorem Unfolds.has (unfolds : store.Unfolds x n) : store.Has x := by
  cases unfolds with
  | intro weight there _ => exact there

theorem Unfolds.unique (unfolds : store.Unfolds x m) (again : store.Unfolds x n) : m = n := by
  induction unfolds generalizing n with
  | intro weight _ _ ih =>
    cases again with
    | intro weight' _ parts' =>
      have same : (store.cell _).parts.map weight = (store.cell _).parts.map weight' :=
        List.map_congr_left fun y member => ih y member (parts' y member)
      rw [same]

/-- What a cell unfolds to is not changed by cells that are added. -/
theorem Unfolds.mono (unfolds : store.Unfolds x n) (builds : store.Builds later) :
    later.Unfolds x n := by
  induction unfolds with
  | intro weight there _ ih =>
    rw [← builds.cell_eq there] at ih ⊢
    exact .intro weight (builds.evolves.has there) ih

theorem Unfolds.congr (unfolds : store.Unfolds x n) (same : later.cells = store.cells) :
    later.Unfolds x n := by
  induction unfolds with
  | intro weight there _ ih =>
    rw [← cell_congr same] at ih ⊢
    exact .intro weight ((has_congr same).mpr there) ih

theorem Unfolds.of_parts (weight : CellId → Nat) {cells : List CellId} (there : store.Has x)
    (parts : (store.cell x).parts = cells) (each : ∀ y ∈ cells, store.Unfolds y (weight y)) :
    store.Unfolds x ((cells.map weight).sum + 1) := by
  subst parts
  exact .intro weight there each

/-- A cell that refers to nothing unfolds to itself. -/
theorem unfolds_of_bare (there : store.Has x) (bare : (store.cell x).parts = []) :
    store.Unfolds x 1 :=
  Unfolds.of_parts (fun _ => 0) there bare fun _ member => nomatch member

/-- A new cell unfolds to the values that it refers to, and one more. -/
theorem unfolds_alloc (parts : ∀ y ∈ c.parts, store.Unfolds y (weight y)) :
    (store.alloc c).2.Unfolds (store.alloc c).1 ((c.parts.map weight).sum + 1) := by
  have same : (store.alloc c).2.cell (store.alloc c).1 = c := cell_alloc_self store c
  exact .of_parts weight (has_alloc store c) (congrArg Cell.parts same) fun y member =>
    (parts y member).mono (.alloc c .refl)

/-! ### Layers -/

/-- **A store is layered on another**: cells were added, each on top of the ones its value refers
to. -/
inductive Layers (store : Store) : Store → Prop
  | refl : Layers store store
  | alloc {later : Store} (c : Cell) : Layers store later → (∀ y ∈ c.parts, later.Has y) →
      Layers store (later.alloc c).2

theorem Layers.trans (first : store.Layers later) (second : later.Layers last) :
    store.Layers last := by
  induction second with
  | refl => exact first
  | alloc c _ parts ih => exact .alloc c ih parts

theorem Layers.builds (layers : store.Layers later) : store.Builds later := by
  induction layers with
  | refl => exact .refl
  | alloc c _ _ ih => exact .alloc c ih

end Store

open Store (Layers Unfolds)

variable {store later : Store} {f x y : CellId} {v : Value} {k m n : Nat}

/-! ### One application -/

/-- **What an application answers** unfolds to no more than a number of values. -/
def Fits (store : Store) (k : Nat) (r : CellId) (later : Store) : Prop :=
  store.Layers later ∧ ∃ n, n ≤ k ∧ later.Unfolds r n

/-- The failure of an application that has not nested too deeply. -/
def Halts (store : Store) (failure : Failure) (later : Store) : Prop :=
  store.Layers later ∧ failure ≠ .depthExhausted

theorem halts_fault (store : Store) (reason : Fault) : Halts store (.fault reason) store :=
  ⟨.refl, Failure.noConfusion⟩

/-- Cells that unfold, with what they unfold to in all. -/
def Store.Spans (store : Store) (cells : List CellId) (n : Nat) : Prop :=
  ∃ weight : CellId → Nat, (∀ y ∈ cells, store.Unfolds y (weight y)) ∧ (cells.map weight).sum = n

theorem Store.Unfolds.spans (unfolds : store.Unfolds x n) :
    ∃ m, store.Spans (store.cell x).parts m ∧ n = m + 1 := by
  cases unfolds with
  | intro weight _ parts => exact ⟨_, ⟨weight, parts, rfl⟩, rfl⟩

/-- One more cell. -/
theorem Store.Unfolds.spans_cons {cells : List CellId} (unfolds : store.Unfolds x m)
    (spans : store.Spans cells n) : store.Spans (x :: cells) (m + n) := by
  obtain ⟨weight, each, total⟩ := spans
  refine ⟨fun y => if y = x then m else weight y, fun y member => ?_, ?_⟩
  · by_cases same : y = x
    · simp only [same, if_true]
      exact unfolds
    · simp only [same, if_false]
      exact each y ((List.mem_cons.mp member).resolve_left same)
  · have same : (cells.map fun y => if y = x then m else weight y) = cells.map weight := by
      refine List.map_congr_left fun y member => ?_
      by_cases same : y = x
      · subst same
        rw [if_pos rfl]
        exact unfolds.unique (each y member)
      · rw [if_neg same]
    rw [List.map_cons, List.sum_cons, same, total, if_pos rfl]

theorem Store.Spans.perm {cells cells' : List CellId} (spans : store.Spans cells n)
    (perm : cells'.Perm cells) : store.Spans cells' n := by
  obtain ⟨weight, each, total⟩ := spans
  refine ⟨weight, fun y member => each y (perm.mem_iff.mp member), ?_⟩
  rw [(perm.map weight).sum_nat, total]

theorem Store.Spans.three {a b c : CellId} (spans : store.Spans [a, b, c] n) :
    ∃ p q r, store.Unfolds a p ∧ store.Unfolds b q ∧ store.Unfolds c r ∧ p + q + r = n := by
  obtain ⟨weight, each, total⟩ := spans
  refine ⟨weight a, weight b, weight c, each a (by simp), each b (by simp), each c (by simp), ?_⟩
  simpa [Nat.add_assoc] using total

theorem Store.Spans.append {cells more : List CellId} (spans : store.Spans (cells ++ more) n) :
    ∃ m, m ≤ n ∧ store.Spans cells m := by
  obtain ⟨weight, each, total⟩ := spans
  refine ⟨_, ?_, weight, fun y member => each y (List.mem_append_left more member), rfl⟩
  rw [← total, List.map_append, List.sum_append_nat]
  exact Nat.le_add_right _ _

theorem Store.Spans.mem {cells : List CellId} (spans : store.Spans cells n) (member : y ∈ cells) :
    ∃ m, m ≤ n ∧ store.Unfolds y m := by
  obtain ⟨weight, each, total⟩ := spans
  refine ⟨weight y, ?_, each y member⟩
  have among : weight y ∈ cells.map weight := List.mem_map_of_mem member
  rw [← total, (List.perm_cons_erase among).sum_nat, List.sum_cons]
  exact Nat.le_add_right _ _

/-! ### Answers that need no further application -/

section Flat

variable {cells : List CellId}

/-- A cell at hand. -/
theorem Store.Spans.pure_fits (spans : store.Spans cells k) (member : y ∈ cells) :
    (pure y : Eval CellId).Ensures store (Fits store (k + 1)) (Halts store) := by
  obtain ⟨m, le, unfolds⟩ := spans.mem member
  exact ⟨.refl, m, Nat.le_succ_of_le le, unfolds⟩

/-- A new cell with a value that refers to some of the cells at hand, to each of them once. -/
theorem Store.Spans.value_fits {v : Value} {rest : List CellId} (spans : store.Spans cells k)
    (perm : (v.cells ++ rest).Perm cells) :
    (Eval.value v).Ensures store (Fits store (k + 1)) (Halts store) := by
  obtain ⟨m, le, weight, each, total⟩ := (spans.perm perm).append
  have parts : ∀ y ∈ (Cell.value v).parts, store.Unfolds y (weight y) := each
  rw [Eval.ensures_value]
  refine ⟨.alloc _ .refl fun y member => (parts y member).has, m + 1, Nat.succ_le_succ le, ?_⟩
  rw [← total]
  exact Store.unfolds_alloc parts

/-- A new suspended cell. -/
theorem suspend_fits (store : Store) (s : Suspension) (k : Nat) :
    (Eval.suspend s).Ensures store (Fits store (k + 1)) (Halts store) := by
  rw [Eval.ensures_suspend]
  refine ⟨.alloc _ .refl (fun _ member => nomatch member), 1, Nat.le_add_left 1 k, ?_⟩
  exact Store.unfolds_of_bare (Store.has_alloc store _)
    (congrArg Cell.parts (Store.cell_alloc_self store _))

/-- A half of a cell at hand. -/
theorem Store.Spans.takeHalf_fits (spans : store.Spans cells k) (member : x ∈ cells) (side : Half) :
    (takeHalf side x).Ensures store (Fits store (k + 1)) (Halts store) := by
  unfold takeHalf
  rw [Eval.ensures_bind, Eval.ensures_cell]
  cases holds : store.cell x with
  | suspended s => exact suspend_fits store _ k
  | value v =>
    obtain ⟨m, le, unfolds⟩ := spans.mem member
    obtain ⟨l, parts, rfl⟩ := unfolds.spans
    rw [holds] at parts
    have answers : ∀ y ∈ v.cells,
        (pure y : Eval CellId).Ensures store (Fits store (k + 1)) (Halts store) := by
      intro y half
      obtain ⟨n, le', unfolds⟩ := Store.Spans.mem parts half
      exact ⟨.refl, n, by omega, unfolds⟩
    cases v with
    | pair head tail =>
      cases side with
      | head => exact answers head (by simp [Value.cells])
      | tail => exact answers tail (by simp [Value.cells])
    | num n => exact halts_fault store _
    | nil => exact halts_fault store _
    | func f => exact halts_fault store _

end Flat

/-! ### What an application does -/

/-- An application that applies further cells: three cells at hand, in two steps. -/
def AppliesFurther (v : Value) (x : CellId) : Prop :=
  ∃ a b c, [a, b, c].Perm (x :: v.cells) ∧
    ((∀ apply, v.applyWith apply x = apply a b >>= fun r => apply r c) ∨
      ∀ apply, v.applyWith apply x = apply b c >>= fun r => apply a r)

/-- **What the application of a value does.** It applies the argument and the cells that the value
refers to, each of them once, or it applies nothing further. -/
theorem applyWith_cases (spans : store.Spans (x :: v.cells) k) :
    AppliesFurther v x ∨ ∃ flat : Eval CellId, (∀ apply, v.applyWith apply x = flat) ∧
      flat.Ensures store (Fits store (k + 1)) (Halts store) := by
  have here : x ∈ x :: v.cells := List.mem_cons_self
  cases v with
  | num n =>
    refine Or.inr ⟨Eval.faultShowing .appliedNumber n, fun _ => by rw [Value.applyWith], ?_⟩
    rw [Eval.ensures_faultShowing]
    cases writable n with
    | false => exact ⟨.refl, Failure.noConfusion⟩
    | true => exact halts_fault store _
  | nil =>
    have nothing : ((boolean true).cells ++ [x]).Perm (x :: Value.nil.cells) := .refl _
    exact Or.inr ⟨_, fun _ => rfl, spans.value_fits nothing⟩
  | pair head tail => exact Or.inl ⟨x, head, tail, .refl _, Or.inl fun _ => rfl⟩
  | func f =>
    cases f with
    | unary g =>
      cases g with
      | monop op => exact Or.inr ⟨_, fun _ => rfl, suspend_fits store _ k⟩
      | isNil => exact Or.inr ⟨_, fun _ => rfl, suspend_fits store _ k⟩
      | half side => exact Or.inr ⟨_, fun _ => rfl, spans.takeHalf_fits here side⟩
      | itself name => exact Or.inr ⟨_, fun _ => rfl, spans.pure_fits here⟩
    | binary g => exact Or.inr ⟨_, fun _ => rfl, spans.value_fits (.refl [x])⟩
    | binaryOn g a =>
      cases g with
      | binop op => exact Or.inr ⟨_, fun _ => rfl, suspend_fits store _ k⟩
      | cons => exact Or.inr ⟨_, fun _ => rfl, spans.value_fits (.swap x a [])⟩
      | first name => exact Or.inr ⟨_, fun _ => rfl, spans.pure_fits (.tail x (.head []))⟩
      | second name => exact Or.inr ⟨_, fun _ => rfl, spans.pure_fits here⟩
      | never =>
        have nothing : ((boolean false).cells ++ [x, a]).Perm [x, a] := .refl _
        exact Or.inr ⟨_, fun _ => rfl, spans.value_fits nothing⟩
    | ternary g => exact Or.inr ⟨_, fun _ => rfl, spans.value_fits (.refl [x])⟩
    | ternaryOn g a => exact Or.inr ⟨_, fun _ => rfl, spans.value_fits (.swap x a [])⟩
    | ternaryOnTwo g a b =>
      cases g with
      | share => exact Or.inr ⟨_, fun _ => rfl, suspend_fits store _ k⟩
      | swap => exact Or.inl ⟨a, x, b, .swap x a [b], Or.inl fun _ => rfl⟩
      | compose =>
        have turned : [a, b, x].Perm [x, a, b] := List.perm_append_singleton x [a, b]
        exact Or.inl ⟨a, b, x, turned, Or.inr fun _ => rfl⟩
      | first name =>
        have at_hand : a ∈ [x, a, b] := by simp
        exact Or.inr ⟨_, fun _ => rfl, spans.pure_fits at_hand⟩
      | second name =>
        have at_hand : b ∈ [x, a, b] := by simp
        exact Or.inr ⟨_, fun _ => rfl, spans.pure_fits at_hand⟩
      | third name => exact Or.inr ⟨_, fun _ => rfl, spans.pure_fits here⟩

/-! ### How much an application answers -/

/-- What an application answers unfolds to no more values than the operator and the argument do. -/
def FitSpec (apply : CellId → CellId → Eval CellId) : Prop :=
  ∀ {store : Store} {f x : CellId} {m n : Nat}, store.Unfolds f m → store.Unfolds x n →
    (apply f x).Ensures store (Fits store (m + n)) fun _ later => store.Layers later

theorem Fits.mono (fits : Fits store m x later) (le : m ≤ n) : Fits store n x later := by
  obtain ⟨layers, l, le', unfolds⟩ := fits
  exact ⟨layers, l, Nat.le_trans le' le, unfolds⟩

/-- Two applications, one after the other. -/
theorem FitSpec.further {apply : CellId → CellId → Eval CellId} (spec : FitSpec apply)
    (further : AppliesFurther v x) (spans : store.Spans (x :: v.cells) k) :
    (v.applyWith apply x).Ensures store (Fits store k) fun _ later => store.Layers later := by
  obtain ⟨a, b, c, perm, twice⟩ := further
  obtain ⟨p, q, r, unfoldsA, unfoldsB, unfoldsC, rfl⟩ := (spans.perm perm).three
  rcases twice with left | right
  · rw [left]
    refine (spec unfoldsA unfoldsB).bind (fun y later fits => ?_) fun _ _ layers => layers
    obtain ⟨layers, n, le, unfolds⟩ := fits
    refine (spec unfolds (unfoldsC.mono layers.builds)).mono (fun z last fits => ?_)
      fun _ last layers' => layers.trans layers'
    obtain ⟨layers', n', le', unfolds'⟩ := fits
    exact ⟨layers.trans layers', n', by omega, unfolds'⟩
  · rw [right]
    refine (spec unfoldsB unfoldsC).bind (fun y later fits => ?_) fun _ _ layers => layers
    obtain ⟨layers, n, le, unfolds⟩ := fits
    refine (spec (unfoldsA.mono layers.builds) unfolds).mono (fun z last fits => ?_)
      fun _ last layers' => layers.trans layers'
    obtain ⟨layers', n', le', unfolds'⟩ := fits
    exact ⟨layers.trans layers', n', by omega, unfolds'⟩

/-- The cells that the application of a value has at hand. -/
theorem Store.Unfolds.at_hand (operator : store.Unfolds f m) (argument : store.Unfolds x n)
    (holds : store.cell f = .value v) :
    ∃ k, store.Spans (x :: v.cells) k ∧ m + n = k + 1 := by
  obtain ⟨l, parts, rfl⟩ := operator.spans
  rw [holds] at parts
  exact ⟨n + l, argument.spans_cons parts, by omega⟩

/-- **What an application answers** unfolds to no more values than the operator and the argument
do. -/
theorem apply_fits (depth : Nat) : FitSpec (apply depth) := by
  induction depth with
  | zero =>
    intro store f x m n operator argument
    cases holds : store.cell f with
    | suspended s =>
      obtain ⟨k, -, rfl⟩ := operator.spans
      rw [Eval.ensures_congr (apply_of_suspended holds 0 x)]
      exact (suspend_fits store _ k).mono (fun _ _ fits => fits.mono (by omega))
        fun _ _ halts => halts.1
    | value v =>
      rw [Eval.ensures_congr (apply_zero_of_value holds x)]
      exact .refl
  | succ depth ih =>
    intro store f x m n operator argument
    cases holds : store.cell f with
    | suspended s =>
      obtain ⟨k, -, rfl⟩ := operator.spans
      rw [Eval.ensures_congr (apply_of_suspended holds _ x)]
      exact (suspend_fits store _ k).mono (fun _ _ fits => fits.mono (by omega))
        fun _ _ halts => halts.1
    | value v =>
      obtain ⟨k, spans, total⟩ := operator.at_hand argument holds
      rw [Eval.ensures_congr (apply_of_value holds depth x), total]
      rcases applyWith_cases spans with further | ⟨flat, same, ensures⟩
      · exact (FitSpec.further ih further spans).mono (fun _ _ fits => fits.mono (Nat.le_succ k))
          fun _ _ layers => layers
      · rw [same]
        exact ensures.mono (fun _ _ fits => fits) fun _ _ halts => halts.1

/-! ### Coming to an end -/

/-- Two applications, one after the other, come to an end if smaller applications do. -/
theorem AppliesFurther.endsBy (further : AppliesFurther v x) (spans : store.Spans (x :: v.cells) k)
    (smaller : ∀ {store : Store} {f x : CellId} {m n : Nat}, store.Unfolds f m →
      store.Unfolds x n → m + n ≤ k → EndsBy (m + n) (fun depth => apply depth f x) store) :
    EndsBy k (fun depth => v.applyWith (apply depth) x) store := by
  obtain ⟨a, b, c, perm, twice⟩ := further
  obtain ⟨p, q, r, unfoldsA, unfoldsB, unfoldsC, rfl⟩ := (spans.perm perm).three
  rcases twice with left | right
  · have first := (smaller unfoldsA unfoldsB (by omega)).mono (show p + q ≤ p + q + r by omega)
    refine (first.bind (fun y depth => apply depth y c) fun y later answered => ?_).congr
      fun depth _ => by rw [left]
    obtain ⟨layers, n, le, unfolds⟩ := (apply_fits _ unfoldsA unfoldsB).ok answered
    exact (smaller unfolds (unfoldsC.mono layers.builds) (by omega)).mono (by omega)
  · have first := (smaller unfoldsB unfoldsC (by omega)).mono (show q + r ≤ p + q + r by omega)
    refine (first.bind (fun y depth => apply depth a y) fun y later answered => ?_).congr
      fun depth _ => by rw [right]
    obtain ⟨layers, n, le, unfolds⟩ := (apply_fits _ unfoldsB unfoldsC).ok answered
    exact (smaller (unfoldsA.mono layers.builds) unfolds (by omega)).mono (by omega)

/-- **An application comes to an end** by the depth that is the number of values that the operator
and the argument unfold to. -/
theorem apply_endsBy (operator : store.Unfolds f m) (argument : store.Unfolds x n) :
    EndsBy (m + n) (fun depth => apply depth f x) store := by
  generalize total : m + n = k
  induction k using Nat.strongRecOn generalizing store f x m n with
  | ind k ih =>
    cases holds : store.cell f with
    | suspended s =>
      have final : IsFinal (Eval.suspend (.apply f x) store) :=
        (suspend_fits store _ 0).isFinal fun _ _ halts => halts.2
      exact (EndsBy.const final).congr fun depth _ => apply_of_suspended holds depth x
    | value v =>
      obtain ⟨l, spans, size⟩ := operator.at_hand argument holds
      obtain rfl : k = l + 1 := by omega
      have nested : EndsBy l (fun depth => v.applyWith (apply depth) x) store := by
        rcases applyWith_cases spans with further | ⟨flat, same, ensures⟩
        · exact further.endsBy spans fun operator argument le =>
            ih _ (by omega) operator argument rfl
        · refine (EndsBy.const (ensures.isFinal fun _ _ halts => halts.2)).congr fun depth _ => ?_
          rw [same]
      exact nested.succ fun depth => apply_of_value holds depth x

/-- **Early reduction comes to an end** where what it is given unfolds to finitely many values. It
answers a cell that unfolds to no more values, or fails, and in both cases it only adds cells: it
runs no suspension. -/
theorem early_reduction_ends (operator : store.Unfolds f m) (argument : store.Unfolds x n) :
    EndsBy (m + n) (fun depth => apply depth f x) store ∧
      ∀ depth, (apply depth f x).Ensures store
        (fun r later => store.Builds later ∧ ∃ k, k ≤ m + n ∧ later.Unfolds r k)
        fun _ later => store.Builds later :=
  ⟨apply_endsBy operator argument, fun depth =>
    (apply_fits depth operator argument).mono (fun _ _ fits => ⟨fits.1.builds, fits.2⟩)
      fun _ _ layers => layers.builds⟩

/-- A function that swaps its arguments refers to a cell that has been forced, and is applied to
another forced cell. -/
theorem early_reduction_ends_forced :
    let store := Interpreter.reached
      [(20, .define "h = ap ap c cons g\ng = ap inc 4"), (20, .eval "ap h 1")]
    store.Unfolds ⟨21⟩ 3 ∧ store.Unfolds ⟨23⟩ 1 ∧
      (apply 4 ⟨21⟩ ⟨23⟩).verdict store = .ok ⟨28⟩ ∧
      EndsBy 4 (fun depth => apply depth ⟨21⟩ ⟨23⟩) store := by
  intro store
  have swaps : store.cell ⟨21⟩ = .value (.func (.ternaryOnTwo .swap ⟨13⟩ ⟨20⟩)) := by
    decide +kernel
  have pairs : store.cell ⟨13⟩ = .value (.func (.binary .cons)) := by decide +kernel
  have five : store.cell ⟨20⟩ = .value (.num 5) ∧ store.cell ⟨23⟩ = .value (.num 5) := by
    decide +kernel
  have there : ∀ i < 24, store.Has ⟨i⟩ := by
    have size : 24 ≤ store.cells.size := by decide +kernel
    exact fun i less => Nat.lt_of_lt_of_le less size
  have bare : ∀ y ∈ [⟨13⟩, ⟨20⟩], store.Unfolds y 1 := by
    intro y member
    rcases List.mem_cons.mp member with rfl | member
    · exact Store.unfolds_of_bare (there 13 (by decide)) (congrArg Cell.parts pairs)
    · obtain rfl := List.mem_singleton.mp member
      exact Store.unfolds_of_bare (there 20 (by decide)) (congrArg Cell.parts five.1)
  have operator : store.Unfolds ⟨21⟩ 3 :=
    Store.Unfolds.of_parts (fun _ => 1) (there 21 (by decide)) (congrArg Cell.parts swaps) bare
  have argument : store.Unfolds ⟨23⟩ 1 :=
    Store.unfolds_of_bare (there 23 (by decide)) (congrArg Cell.parts five.2)
  exact ⟨operator, argument, by decide +kernel, (early_reduction_ends operator argument).1⟩

/-! ### Not coming to an end -/

/-- Swapping nests as deeply as the application of its first argument does. -/
theorem swap_exhausts {a b : CellId}
    (holds : store.cell f = .value (.func (.ternaryOnTwo .swap a b)))
    (exhausted : ∀ depth, apply depth a x store = .error .depthExhausted store) (depth : Nat) :
    apply depth f x store = .error .depthExhausted store := by
  cases depth with
  | zero => exact apply_zero_of_value holds x
  | succ depth =>
    rw [apply_of_value holds]
    exact bind_of_error (exhausted depth)

/-- A function that swaps and refers to itself nests without end. -/
theorem swap_self_exhausts {a b : CellId}
    (holds : store.cell a = .value (.func (.ternaryOnTwo .swap a b))) (x : CellId)
    (depth : Nat) : apply depth a x store = .error .depthExhausted store := by
  induction depth with
  | zero => exact apply_zero_of_value holds x
  | succ depth ih =>
    rw [apply_of_value holds]
    exact bind_of_error ih

/-- **Early reduction may not come to an end.** Once the reference to `g` in the body of `g` has been
forced, it holds a function that swaps and refers to itself, and no application of `g` comes to an
end. -/
theorem early_reduction_never_ends :
    let store := (Session.reached
      [(20, .ofCommand (.environment (.load "p = ap ap cons g 1\ng = ap ap c ap car p 0"))),
        (20, .ofCommand (.build (some "x") (.parse "ap car p"))),
        (20, .ofCommand (.demand (.force "x")))]).store
    ∃ g, (store.table ⟨0⟩).lookup "g" = some g ∧
      ∀ x, ¬ Ends (fun depth => apply depth g x) store := by
  intro store
  have bound : (store.table ⟨0⟩).lookup "g" = some ⟨25⟩ := by decide +kernel
  have swaps : store.cell ⟨25⟩ = .value (.func (.ternaryOnTwo .swap ⟨19⟩ ⟨24⟩)) := by
    decide +kernel
  have forced : store.cell ⟨19⟩ = .value (.func (.ternaryOnTwo .swap ⟨19⟩ ⟨24⟩)) := by
    decide +kernel
  refine ⟨⟨25⟩, bound, fun x => not_ends fun depth => ⟨store, ?_⟩⟩
  exact swap_exhausts swaps (swap_self_exhausts forced x) depth

end ByNeed
