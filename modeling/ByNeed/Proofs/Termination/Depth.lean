/-
**Depth only decides whether there is an outcome.**

A computation that nests ends in the same way at every depth that suffices for it, in the same store.
So it has one outcome, if any, and one can speak of what it settles to without naming a depth.

* `Deepens`: a second computation ends as the first does, wherever that is not for want of depth;
* `apply_deepens`, `force_deepens`: **more depth keeps the outcome** of applying and forcing;
* `Settles`: the outcome that a computation has from some depth on;
* `settles_bind_iff`: a computation settles as its parts do, one after the other;
* `settles_succ_iff`: and does not depend on how the levels of nesting are counted.
-/

import ByNeed.Proofs.Effect
import ByNeed.Proofs.Termination

namespace ByNeed

/-! ### More depth -/

section Deepens

variable {α β : Type} {store : Store}

/-- **The second computation ends as the first does**, wherever that does not want depth. -/
def Deepens (computation deeper : Eval α) : Prop :=
  ∀ store, IsFinal (computation store) → deeper store = computation store

theorem Deepens.refl (computation : Eval α) : Deepens computation computation :=
  fun _ _ => rfl

theorem Deepens.trans {first second third : Eval α} (one : Deepens first second)
    (two : Deepens second third) : Deepens first third := by
  intro store final
  have same := one store final
  rw [two store (by rwa [same]), same]

/-- A computation whose end is final has a first part whose end is final. -/
theorem isFinal_of_bind {computation : Eval α} {next : α → Eval β}
    (final : IsFinal ((computation >>= next) store)) : IsFinal (computation store) :=
  fun later exhausted => final later (bind_of_error exhausted)

theorem Deepens.bind {computation deeper : Eval α} {next next' : α → Eval β}
    (first : Deepens computation deeper) (rest : ∀ a, Deepens (next a) (next' a)) :
    Deepens (computation >>= next) (deeper >>= next') := by
  intro store final
  have same := first store (isFinal_of_bind final)
  cases ended : computation store with
  | ok a later =>
    rw [ended] at same
    rw [bind_of_ok ended] at final
    rw [bind_of_ok ended, bind_of_ok same, rest a later final]
  | error failure later =>
    rw [ended] at same
    rw [bind_of_error ended, bind_of_error same]

theorem Deepens.foldlM {step step' : β → α → Eval β} (each : ∀ b a, Deepens (step b a) (step' b a))
    (items : List α) (start : β) : Deepens (items.foldlM step start) (items.foldlM step' start) := by
  induction items generalizing start with
  | nil => exact .refl _
  | cons item rest ih =>
    rw [List.foldlM_cons, List.foldlM_cons]
    exact (each start item).bind ih

/-- The computations deepen each other along a growing depth. -/
def DeepensAll (computation : Nat → Eval α) : Prop :=
  ∀ depth more, depth ≤ more → Deepens (computation depth) (computation more)

/-- Each level of depth deepens the one before it. -/
theorem deepensAll_of_succ {computation : Nat → Eval α}
    (step : ∀ depth, Deepens (computation depth) (computation (depth + 1))) :
    DeepensAll computation := by
  intro depth more le
  induction le with
  | refl => exact .refl _
  | step _ ih => exact ih.trans (step _)

theorem deepensAll_const (computation : Eval α) : DeepensAll fun _ => computation :=
  fun _ _ _ => .refl computation

theorem DeepensAll.bind {computation : Nat → Eval α} {next : α → Nat → Eval β}
    (first : DeepensAll computation) (rest : ∀ a, DeepensAll (next a)) :
    DeepensAll fun depth => computation depth >>= fun a => next a depth :=
  fun depth more le => (first depth more le).bind fun a => rest a depth more le

theorem DeepensAll.foldlM {step : Nat → β → α → Eval β}
    (each : ∀ b a, DeepensAll fun depth => step depth b a) (items : List α) (start : β) :
    DeepensAll fun depth => items.foldlM (step depth) start :=
  fun depth more le => .foldlM (fun b a => each b a depth more le) items start

end Deepens

/-! ### Applying and forcing -/

section Parts

variable {force force' : CellId → Eval Value} {apply apply' : CellId → CellId → Eval CellId}
  (forced : ∀ x, Deepens (force x) (force' x)) (applied : ∀ f x, Deepens (apply f x) (apply' f x))

include applied in
theorem effect_deepens (effect : Effect) : Deepens (effect.run apply) (effect.run apply') := by
  cases effect with
  | answer x => exact .refl _
  | add c => exact .refl _
  | take side x => exact .refl _
  | apply f x => exact applied f x
  | applyTwice f x y => exact (applied f x).bind fun g => applied g y
  | applyNested f g x => exact (applied g x).bind fun y => applied f y
  | refuse n => exact .refl _

include applied in
theorem applyWith_deepens (v : Value) (x : CellId) :
    Deepens (v.applyWith apply x) (v.applyWith apply' x) := by
  rw [applyWith_eq_run, applyWith_eq_run]
  exact effect_deepens applied (v.effect x)

include applied in
theorem questionWith_deepens (g : Func) : Deepens (questionWith apply g) (questionWith apply' g) :=
  (Deepens.refl _).bind fun asked => (Deepens.refl _).bind fun _ => (Deepens.refl _).bind fun _ =>
    (Deepens.refl _).bind fun _ => .foldlM applied _ asked

include forced in
/-- What is forced for want of depth is not taken for a fault of the question. -/
theorem answerWith_deepens (name : Option String) (x : CellId) :
    Deepens (answerWith force name x) (answerWith force' name x) := by
  intro store final
  have inner : IsFinal (force x store) := by
    intro later exhausted
    have out := Eval.outcome_of_error exhausted
    exact final later (bind_of_ok out)
  have same : Eval.outcome (force' x) store = Eval.outcome (force x) store := by
    simp only [Eval.outcome, forced x store inner]
  show (Eval.outcome (force' x) >>= _) store = (Eval.outcome (force x) >>= _) store
  cases ended : Eval.outcome (force x) store with
  | ok result later => rw [bind_of_ok ended, bind_of_ok (same.trans ended)]
  | error failure later => rw [bind_of_error ended, bind_of_error (same.trans ended)]

include forced applied

theorem isNilWith_deepens (x : CellId) :
    Deepens (isNilWith force apply x) (isNilWith force' apply' x) := by
  refine (forced x).bind fun v => ?_
  cases v with
  | func g =>
    refine (questionWith_deepens applied g).bind fun question => ?_
    exact (answerWith_deepens forced g.name question).bind fun _ => .refl _
  | _ => exact .refl _

theorem run_deepens (s : Suspension) : Deepens (s.run force apply) (s.run force' apply') := by
  cases s with
  | apply f x => exact (forced f).bind fun v => (applyWith_deepens applied v x).bind forced
  | half side x => exact (forced x).bind fun v => (Deepens.refl _).bind forced
  | lookup table name =>
    refine (Deepens.refl _).bind fun store => ?_
    cases (store.table table).lookup name with
    | some x => exact forced x
    | none => exact .refl _
  | observe label x => exact (Deepens.refl _).bind fun _ => forced x
  | monop op x => exact (forced x).bind fun _ => .refl _
  | binop op x y =>
    refine (forced x).bind fun v => (Deepens.refl _).bind fun m => ?_
    exact (forced y).bind fun _ => .refl _
  | isNil x => exact (isNilWith_deepens forced applied x).bind fun _ => .refl _
  | share a b c =>
    exact (applied a c).bind fun f => (applied b c).bind fun x => (applied f x).bind forced

end Parts

/-- **More depth keeps the outcome of applying.** -/
theorem apply_deepens (f x : CellId) : DeepensAll fun depth => apply depth f x := by
  refine deepensAll_of_succ fun depth => ?_
  induction depth generalizing f x with
  | zero =>
    intro store final
    cases holds : store.cell f with
    | suspended s =>
      show apply 1 f x store = apply 0 f x store
      rw [apply_of_suspended holds, apply_of_suspended holds]
    | value v => exact (final store (apply_zero_of_value holds x)).elim
  | succ depth ih =>
    refine (Deepens.refl _).bind fun c => ?_
    cases c with
    | suspended s => exact .refl _
    | value v => exact applyWith_deepens ih v x

/-- **More depth keeps the outcome of forcing.** -/
theorem force_deepens (x : CellId) : DeepensAll fun depth => force depth x := by
  refine deepensAll_of_succ fun depth => ?_
  induction depth generalizing x with
  | zero =>
    intro store final
    cases holds : store.cell x with
    | suspended s => exact (final store (force_zero_of_suspended holds)).elim
    | value v =>
      show force 1 x store = force 0 x store
      rw [force_of_value holds, force_of_value holds]
  | succ depth ih =>
    refine (Deepens.refl _).bind fun c => ?_
    cases c with
    | value v => exact .refl _
    | suspended s =>
      have runs := run_deepens ih (fun f y => apply_deepens f y _ _ (Nat.le_succ depth)) s
      exact runs.bind fun _ => .refl _

/-- A cell that has been forced with some depth is forced alike with more. -/
theorem force_of_le {depth more : Nat} {x : CellId} {store later : Store} {v : Value}
    (le : depth ≤ more) (forced : force depth x store = .ok v later) :
    force more x store = .ok v later := by
  have final : IsFinal (force depth x store) := by
    rw [forced]
    exact fun _ => nofun
  exact (force_deepens x depth more le store final).trans forced

theorem run_deepensAll (s : Suspension) : DeepensAll fun depth => s.run (force depth) (apply depth) :=
  fun depth more le => run_deepens (fun x => force_deepens x depth more le)
    (fun f x => apply_deepens f x depth more le) s

/-! ### What a computation settles to -/

section Settles

variable {α β : Type} {computation other : Nat → Eval α} {next : α → Nat → Eval β}
  {store store' later : Store} {outcome outcome' : EStateM.Result Failure Store α}

/-- **A computation settles to an outcome**: it is final, and the one from some depth on. -/
def Settles (computation : Nat → Eval α) (store : Store)
    (outcome : EStateM.Result Failure Store α) : Prop :=
  IsFinal outcome ∧ ∃ bound, ∀ depth, bound ≤ depth → computation depth store = outcome

/-- There is one outcome at most. -/
theorem Settles.unique (settles : Settles computation store outcome)
    (again : Settles computation store outcome') : outcome = outcome' := by
  obtain ⟨-, bound, settled⟩ := settles
  obtain ⟨-, bound', settled'⟩ := again
  rw [← settled (max bound bound') (Nat.le_max_left _ _), settled' _ (Nat.le_max_right _ _)]

/-- **A final outcome is what the computation settles to.** -/
theorem DeepensAll.settles (deepens : DeepensAll computation) {depth : Nat}
    (final : IsFinal (computation depth store)) :
    Settles computation store (computation depth store) :=
  ⟨final, depth, fun more le => deepens depth more le store final⟩

/-- A depth at which the outcome is there. -/
theorem Settles.exists_depth (settles : Settles computation store outcome) :
    ∃ depth, computation depth store = outcome := by
  obtain ⟨-, bound, settled⟩ := settles
  exact ⟨bound, settled bound (Nat.le_refl bound)⟩

theorem settles_congr
    (same : ∀ depth, computation depth store = other depth store') :
    Settles computation store outcome ↔ Settles other store' outcome := by
  unfold Settles
  simp only [same]

/-- **One level of nesting more takes one level of depth more.** -/
theorem settles_succ_iff (same : ∀ depth, computation (depth + 1) store = other depth store') :
    Settles computation store outcome ↔ Settles other store' outcome := by
  constructor
  · rintro ⟨final, bound, settled⟩
    exact ⟨final, bound, fun depth le => (same depth).symm.trans (settled (depth + 1) (by omega))⟩
  · rintro ⟨final, bound, settled⟩
    refine ⟨final, bound + 1, fun depth le => ?_⟩
    cases depth with
    | zero => omega
    | succ depth => exact (same depth).trans (settled depth (by omega))

variable {outcome : EStateM.Result Failure Store β}

theorem Settles.bind_ok {a : α} (first : Settles computation store (.ok a later))
    (rest : Settles (next a) later outcome) :
    Settles (fun depth => computation depth >>= fun a => next a depth) store outcome := by
  obtain ⟨-, bound, settled⟩ := first
  obtain ⟨final, bound', settled'⟩ := rest
  refine ⟨final, max bound bound', fun depth le => ?_⟩
  exact (bind_of_ok (settled depth (by omega))).trans (settled' depth (by omega))

theorem Settles.bind_error {failure : Failure}
    (first : Settles computation store (.error failure later)) :
    Settles (fun depth => computation depth >>= fun a => next a depth) store
      (.error failure later) := by
  obtain ⟨final, bound, settled⟩ := first
  refine ⟨fun last exhausted => ?_, bound, fun depth le => bind_of_error (settled depth le)⟩
  cases exhausted
  exact final later rfl

/-- **A computation settles as its parts do**, one after the other. -/
theorem settles_bind_iff (deepens : DeepensAll computation) (deepens' : ∀ a, DeepensAll (next a)) :
    Settles (fun depth => computation depth >>= fun a => next a depth) store outcome ↔
      (∃ a later, Settles computation store (.ok a later) ∧ Settles (next a) later outcome) ∨
        ∃ failure later, Settles computation store (.error failure later) ∧
          outcome = .error failure later := by
  constructor
  · rintro ⟨final, bound, settled⟩
    have whole : (computation bound >>= fun a => next a bound) store = outcome :=
      settled bound (Nat.le_refl bound)
    have first : IsFinal (computation bound store) := by
      rw [← whole] at final
      exact isFinal_of_bind final
    have settles := deepens.settles first
    cases ended : computation bound store with
    | ok a later =>
      rw [ended] at settles
      rw [bind_of_ok ended] at whole
      rw [← whole] at final ⊢
      exact Or.inl ⟨a, later, settles, (deepens' a).settles final⟩
    | error failure later =>
      rw [ended] at settles
      rw [bind_of_error ended] at whole
      exact Or.inr ⟨failure, later, settles, whole.symm⟩
  · rintro (⟨a, later, first, rest⟩ | ⟨failure, later, first, rfl⟩)
    · exact first.bind_ok rest
    · exact first.bind_error

/-- A first part may be exchanged for another that settles alike. -/
theorem settles_bind_congr (deepens : DeepensAll computation) (deepens' : ∀ a, DeepensAll (next a))
    (deepensOther : DeepensAll other)
    (same : ∀ outcome, Settles computation store outcome ↔ Settles other store' outcome) :
    Settles (fun depth => computation depth >>= fun a => next a depth) store outcome ↔
      Settles (fun depth => other depth >>= fun a => next a depth) store' outcome := by
  rw [settles_bind_iff deepens deepens', settles_bind_iff deepensOther deepens']
  simp only [same]

end Settles

end ByNeed
